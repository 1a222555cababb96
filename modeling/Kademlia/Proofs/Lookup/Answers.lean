import Kademlia.Proofs.Lookup.Rounds
import Mathlib.Data.List.Basic

namespace Kademlia
namespace Lookup

/-!
# Who has answered

A lookup knows its candidates by their identifiers alone.  An answer marks the candidate that has
the identifier of its sender, whatever address it came from; the candidate stays at the address at
which the identifier was first heard of, be it in the nodes that the lookup was started with, as the
sender of an answer, or in the nodes that an answer lists.  So of a node that the outcome reports
it is certain that an answer came under its identifier, and that its address is the first one heard
of, but not that the answer came from that address (`Vouched`).  Where it did, the node has answered
itself.

What an outcome is can be told from the reports alone, the answers and failures that the lookup has
taken up: it lists the nearest of the nodes heard of that stand by an answer, which is the last
report under their identifier (`supported_run`).  As in the theory of the rounds, the argument goes
by the candidates that the lookup would have if it never forgot one.  One that was cut off never
comes back, so that the first address counts.
-/

/-! ## Reports -/

/-- An answer that was taken up. -/
structure Answer where
  sender : Contact
  token : Option Bytes
  nodes : List Contact

/-- What a lookup has taken up of a node: its answer, or that it has failed. -/
inductive Report where
  | answer (answer : Answer)
  | failure (id : NodeId)

namespace Report

/-- The identifier that a report comes under. -/
def id : Report → NodeId
  | .answer given => given.sender.id
  | .failure id => id

def answer? : Report → Option Answer
  | .answer given => some given
  | .failure _ => none

/-- The nodes that are heard of by a report. -/
def nodes : Report → List Contact
  | .answer given => given.sender :: given.nodes
  | .failure _ => []

end Report

/-- What a call reports: an answer if the query is in flight, a failure if the node is known. -/
def report? (l : Lookup) : Call → Option Report
  | .step => none
  | .sent _ _ => none
  | .sendFailed nodeId => nodeId.map .failure
  | .response id sender response nodes =>
    if l.isPending id then some (.answer ⟨sender, response.token, nodes⟩) else none
  | .failure id => ((l.pending.find? (·.1 = id)).bind (·.2)).map .failure

/-- The reports among some calls. -/
def reports (l : Lookup) : List Call → List Report
  | [] => []
  | call :: rest => (l.report? call).toList ++ reports (l.call call).2 rest

/-- The nodes that a lookup has heard of, in order, from some nodes to start with and from reports. -/
def heard (contacts : List Contact) (reports : List Report) : List Contact :=
  contacts ++ reports.flatMap Report.nodes

/-- The answer by which an identifier stands: the last report under it, if that is an answer. -/
def standing? (reports : List Report) (id : NodeId) : Option Answer :=
  (reports.reverse.find? (·.id = id)).bind Report.answer?

/-- What is certain of a node that is said to have answered: it stands at the first address heard of
under its identifier, and the identifier stands by an answer.  If this came from the node itself, it
is the last answer from that very node. -/
structure Vouched (known : List Contact) (reports : List Report) (contact : Contact)
    (answer : Answer) : Prop where
  first : known.find? (·.id = contact.id) = some contact
  stands : standing? reports contact.id = some answer
  own : answer.sender = contact →
    (reports.filterMap Report.answer?).reverse.find? (·.sender = contact) = some answer

section Reports

variable {contacts : List Contact} {past : List Report} {report : Report} {answer : Answer}
  {id : NodeId}

theorem heard_append : heard contacts (past ++ [report]) = heard contacts past ++ report.nodes := by
  rw [heard, List.flatMap_append, List.flatMap_singleton, ← List.append_assoc]
  rfl

/-- Nobody is heard of by a failure. -/
theorem heard_append_failure (nodeId : Option NodeId) :
    heard contacts (past ++ (nodeId.map Report.failure).toList) = heard contacts past := by
  cases nodeId with
  | none => rw [Option.map_none, Option.toList_none, List.append_nil]
  | some id => exact heard_append.trans (List.append_nil _)

theorem standing?_append_of_eq (same : report.id = id) :
    standing? (past ++ [report]) id = report.answer? := by
  have hFound : (report :: past.reverse).find? (·.id = id) = some report :=
    List.find?_cons_of_pos (decide_eq_true same)
  rw [standing?, List.reverse_append, List.reverse_singleton, List.singleton_append, hFound]
  rfl

theorem standing?_append_of_ne (other : report.id ≠ id) :
    standing? (past ++ [report]) id = standing? past id := by
  rw [standing?, List.reverse_append, List.reverse_singleton, List.singleton_append,
    List.find?_cons_of_neg (by simpa using other)]
  rfl

/-- The answer by which an identifier stands is the last one from its sender. -/
theorem find?_sender_of_standing? (stands : standing? past answer.sender.id = some answer) :
    (past.filterMap Report.answer?).reverse.find? (·.sender = answer.sender) = some answer := by
  rcases Option.bind_eq_some_iff.mp stands with ⟨report, last, told⟩
  rcases List.find?_eq_some_iff_append.mp last with ⟨-, later, earlier, split, others⟩
  rw [← List.filterMap_reverse, split, List.filterMap_append, List.filterMap_cons_some told]
  refine List.find?_eq_some_iff_append.mpr ⟨decide_eq_true rfl, _, _, rfl, ?_⟩
  intro other among
  rcases List.mem_filterMap.mp among with ⟨newer, member, found⟩
  have hOther := others newer member
  cases newer with
  | failure => cases found
  | answer =>
    rcases Option.some.inj found with rfl
    simp only [Bool.not_eq_true', decide_eq_false_iff_not] at hOther ⊢
    exact fun same => hOther (congrArg Contact.id same)

end Reports

/-! ## The candidates that were ever taken up -/

/-- The token that a candidate is remembered to have answered with, if it has. -/
def answered? (c : Candidate) : Option (Option Bytes) :=
  if c.state = .responded then some c.token else none

/-- What the candidates, with those that were cut off, have to do with the nodes heard of and the
reports. -/
structure Learned (all : List Candidate) (known : List Contact) (reports : List Report)
    (l : Lookup) : Prop where
  recorded : Recorded all [] l
  complete : ∀ contact ∈ known, ∃ c ∈ all, c.contact.id = contact.id
  first : ∀ c ∈ all, known.find? (·.id = c.contact.id) = some c.contact
  standing : ∀ id answer, standing? reports id = some answer → ∃ c ∈ all, c.contact.id = id
  answered : ∀ c ∈ all, answered? c = (standing? reports c.contact.id).map (·.token)

namespace Learned

variable {l next : Lookup} {all : List Candidate} {known contacts : List Contact}
  {past now : List Report} {id : NodeId}

theorem of_eq (learned : Learned all known past l) (candidates : next.candidates = l.candidates)
    (target : next.target = l.target) : Learned all known past next :=
  { learned with recorded := learned.recorded.of_eq candidates target }

/-- The first contact under an identifier is taken up, any later one is not. -/
theorem addCandidate (learned : Learned all known past l) (contact : Contact) :
    ∃ all, Learned all (known ++ [contact]) past (l.addCandidate contact) := by
  have hRecorded : Recorded (insertCandidate l.target { contact } all) []
      (l.addCandidate contact) := learned.recorded.addCandidate
  have hStays : ∀ id, (∃ c ∈ all, c.contact.id = id) →
      ∃ c ∈ insertCandidate l.target { contact } all, c.contact.id = id := by
    rintro id ⟨c, among, same⟩
    exact ⟨c, mem_insertCandidate_of_mem among, same⟩
  -- no candidate that was there before has the identifier of one that was not
  have hNew : ∀ c ∈ insertCandidate l.target { contact } all, c ∉ all →
      c = { contact } ∧ ¬ ∃ old ∈ all, old.contact.id = contact.id := by
    intro c member new
    have hContact := (eq_or_mem_of_mem_insertCandidate member).resolve_right new
    refine ⟨hContact, ?_⟩
    rintro ⟨old, among, same⟩
    have hSame : old.contact.id = c.contact.id := by
      rw [hContact]
      exact same
    rw [eq_of_nodup_map hRecorded.distinct (mem_insertCandidate_of_mem among) member hSame] at among
    exact new among
  refine ⟨_, hRecorded, ?_, ?_, fun id answer stands => hStays id (learned.standing id answer stands),
    ?_⟩
  · intro other member
    rcases List.mem_append.mp member with old | new
    · exact hStays _ (learned.complete other old)
    · rw [List.mem_singleton.mp new]
      exact exists_mem_insertCandidate l.target { contact } all
  · intro c member
    rw [List.find?_append]
    by_cases old : c ∈ all
    · rw [learned.first c old]
      rfl
    · rcases hNew c member old with ⟨rfl, unknown⟩
      have hUnknown : known.find? (·.id = contact.id) = none := by
        refine List.find?_eq_none.mpr fun other among same => unknown ?_
        rw [← of_decide_eq_true same]
        exact learned.complete other among
      rw [hUnknown, Option.none_or, List.find?_singleton]
      simp
  · intro c member
    by_cases old : c ∈ all
    · exact learned.answered c old
    · rcases hNew c member old with ⟨rfl, unknown⟩
      cases stands : standing? past contact.id with
      | none => rfl
      | some answer => exact absurd (learned.standing _ answer stands) unknown

theorem addCandidates (learned : Learned all known past l) (contacts : List Contact) :
    ∃ all, Learned all (known ++ contacts) past (l.addCandidates contacts) := by
  unfold Lookup.addCandidates
  induction contacts generalizing l all known with
  | nil =>
    rw [List.append_nil]
    exact ⟨all, learned⟩
  | cons contact contacts ih =>
    rcases learned.addCandidate contact with ⟨all, learned⟩
    rw [List.append_cons]
    exact ih learned

/-- One candidate is marked as the reports say. -/
theorem mark (learned : Learned all known past l) (change : Candidate → Candidate)
    (keeps : ∀ c, (change c).contact = c.contact) (marks : ∀ c, (change c).state ≠ .fresh)
    (others : ∀ other, other ≠ id → standing? now other = standing? past other)
    (here : ∀ answer, standing? now id = some answer → ∃ c ∈ all, c.contact.id = id)
    (reported : ∀ c ∈ all, c.contact.id = id →
      answered? (change c) = (standing? now id).map (·.token)) :
    Learned (modifyFirst (·.contact.id = id) change all) known now
      { l with candidates := modifyFirst (·.contact.id = id) change l.candidates } := by
  have hIds : (modifyFirst (·.contact.id = id) change all).map (·.contact.id) =
      all.map (·.contact.id) := map_modifyFirst fun c _ => congrArg Contact.id (keeps c)
  have hStays : ∀ other, (∃ c ∈ all, c.contact.id = other) →
      ∃ c ∈ modifyFirst (·.contact.id = id) change all, c.contact.id = other := by
    intro other among
    have hAmong := List.mem_map.mpr among
    rw [← hIds] at hAmong
    exact List.mem_map.mp hAmong
  refine ⟨learned.recorded.mark change keeps marks rfl rfl,
    fun contact member => hStays _ (learned.complete contact member), ?_, ?_, ?_⟩
  · intro c member
    rcases (mem_modifyFirst_iff learned.recorded.distinct).mp member with
      ⟨among, -⟩ | ⟨old, among, -, rfl⟩
    · exact learned.first c among
    · rw [keeps old]
      exact learned.first old among
  · intro other answer stands
    apply hStays
    by_cases same : other = id
    · rw [same] at stands ⊢
      exact here answer stands
    · rw [others other same] at stands
      exact learned.standing other answer stands
  · intro c member
    rcases (mem_modifyFirst_iff learned.recorded.distinct).mp member with
      ⟨among, other⟩ | ⟨old, among, same, rfl⟩
    · rw [others _ other]
      exact learned.answered c among
    · rw [keeps old, same]
      exact reported old among same

/-- To be asked makes no difference to a candidate that has not answered. -/
theorem ask (learned : Learned all known past l)
    (silent : ∀ c ∈ all, c.contact.id = id → c.state ≠ .responded) :
    Learned (modifyFirst (·.contact.id = id) ({ · with state := .queried }) all) known past
      (l.setState id .queried) := by
  refine learned.mark ({ · with state := .queried }) (fun _ => rfl) (fun _ => by simp)
    (fun _ _ => rfl) (fun answer => learned.standing id answer) fun c among same => ?_
  have hAnswered := learned.answered c among
  rw [same, answered?, if_neg (silent c among same)] at hAnswered
  rw [← hAnswered]
  rfl

/-- With a failure, the identifier stands by no answer any more. -/
theorem fail (learned : Learned all known past l) (id : NodeId) :
    Learned (modifyFirst (·.contact.id = id) ({ · with state := .failed }) all) known
      (past ++ [.failure id]) (l.setState id .failed) := by
  have hFailed : standing? (past ++ [.failure id]) id = none := standing?_append_of_eq rfl
  refine learned.mark ({ · with state := .failed }) (fun _ => rfl) (fun _ => by simp)
    (fun _ other => standing?_append_of_ne other.symm) ?_ ?_
  · intro answer stands
    rw [hFailed] at stands
    cases stands
  · intro c among same
    rw [hFailed]
    rfl

theorem sendFailed (learned : Learned all known past l) (nodeId : Option NodeId) :
    ∃ all, Learned all known (past ++ (nodeId.map Report.failure).toList)
      (l.sendFailed nodeId) := by
  cases nodeId with
  | none =>
    rw [Option.map_none, Option.toList_none, List.append_nil]
    exact ⟨all, learned⟩
  | some id => exact ⟨_, learned.fail id⟩

theorem beginRound (learned : Learned all known past l) (count : Nat) :
    ∃ all, Learned all known past (l.beginRound count).2 := by
  have hSilent : ∀ contact ∈ l.picks count, ∀ c ∈ all, c.contact.id = contact.id →
      c.state ≠ .responded := by
    intro contact picked c among same
    rcases mem_picks picked with ⟨fresh, candidate, rfl, untouched⟩
    rw [learned.recorded.remembered] at candidate
    rw [eq_of_nodup_map learned.recorded.distinct among (List.mem_of_mem_take candidate) same,
      untouched]
    decide
  have hMarked : ∀ contacts : List Contact, (∀ contact ∈ contacts, ∀ c ∈ all,
      c.contact.id = contact.id → c.state ≠ .responded) → ∃ all, Learned all known past
        (contacts.foldl (fun l c => l.setState c.id .queried) l) := by
    intro contacts silent
    clear hSilent
    induction contacts generalizing l all with
    | nil => exact ⟨all, learned⟩
    | cons contact contacts ih =>
      refine ih (learned.ask (silent contact List.mem_cons_self)) fun other later c member same => ?_
      rcases mem_modifyFirst member with among | ⟨old, -, -, rfl⟩
      · exact silent other (List.mem_cons_of_mem _ later) c among same
      · show CandidateState.queried ≠ .responded
        decide
  rcases hMarked (l.picks count) hSilent with ⟨all, learned⟩
  exact ⟨all, learned.of_eq rfl rfl⟩

theorem step (learned : Learned all known past l) : ∃ all, Learned all known past l.step.2 := by
  have hStepped := stepped_step l
  generalize l.step = result at hStepped ⊢
  cases hStepped with
  | wait => exact ⟨all, learned⟩
  | again => exact ⟨all, learned⟩
  | finished => exact ⟨all, learned.of_eq rfl rfl⟩
  | round last count =>
    have hSame : Learned all known past { l with finalRound := last } := learned.of_eq rfl rfl
    exact hSame.beginRound count

/-- The sender is heard of first, then marked, and then the nodes that it lists are heard of. -/
theorem onResponse {number : TransactionId} (learned : Learned all known past l)
    (asked : l.isPending number = true) (sender : Contact) (response : Response)
    (nodes : List Contact) :
    ∃ all, Learned all (known ++ sender :: nodes)
      (past ++ [.answer ⟨sender, response.token, nodes⟩])
      (l.onResponse number sender response nodes).2 := by
  have hSettled : Learned all known past (l.settle number) := learned.of_eq rfl rfl
  rcases hSettled.addCandidate sender with ⟨taken, hTaken⟩
  have hOthers : ∀ other, other ≠ sender.id →
      standing? (past ++ [.answer ⟨sender, response.token, nodes⟩]) other = standing? past other :=
    fun _ other => standing?_append_of_ne other.symm
  have hStands : standing? (past ++ [.answer ⟨sender, response.token, nodes⟩]) sender.id =
      some ⟨sender, response.token, nodes⟩ := standing?_append_of_eq rfl
  have hMarked := hTaken.mark ({ · with state := .responded, token := response.token })
    (fun _ => rfl) (fun _ => by simp) hOthers
    (fun _ _ => hTaken.complete sender (List.mem_append_right _ (List.mem_singleton_self sender)))
    (fun c _ _ => by rw [hStands]; rfl)
  rcases hMarked.addCandidates nodes with ⟨listed, hListed⟩
  unfold Lookup.onResponse
  rw [asked, Bool.not_true, if_neg Bool.false_ne_true, List.append_cons]
  dsimp only
  split
  · exact ⟨listed, hListed⟩
  · exact ⟨listed, hListed.of_eq rfl rfl⟩

/-- What a call reports is heard of and stands, and nothing else changes. -/
theorem call (learned : Learned all (heard contacts past) past l) (call : Call) :
    ∃ all, Learned all (heard contacts (past ++ (l.report? call).toList))
      (past ++ (l.report? call).toList) (l.call call).2 := by
  have hSilent : l.report? call = none →
      (∃ all, Learned all (heard contacts past) past (l.call call).2) →
      ∃ all, Learned all (heard contacts (past ++ (l.report? call).toList))
        (past ++ (l.report? call).toList) (l.call call).2 := by
    intro silent kept
    rw [silent, Option.toList_none, List.append_nil]
    exact kept
  cases call with
  | step => exact hSilent rfl learned.step
  | sent number nodeId => exact hSilent rfl ⟨all, learned.of_eq rfl rfl⟩
  | sendFailed nodeId =>
    rw [report?, heard_append_failure]
    exact learned.sendFailed nodeId
  | failure number =>
    have hSettled : Learned all (heard contacts past) past (l.settle number) :=
      learned.of_eq rfl rfl
    rw [report?, heard_append_failure]
    exact hSettled.sendFailed _
  | response number sender response nodes =>
    by_cases asked : l.isPending number = true
    · rw [report?, if_pos asked, Option.toList_some, heard_append]
      exact learned.onResponse asked sender response nodes
    · have hUnasked : (!l.isPending number) = true := by simpa using asked
      refine hSilent (if_neg asked) ⟨all, ?_⟩
      rw [Lookup.call, Lookup.onResponse, if_pos hUnasked]
      exact learned

end Learned

/-! ## The run -/

section Run

variable {l : Lookup} {all : List Candidate} {contacts : List Contact} {past : List Report}

theorem Learned.run (learned : Learned all (heard contacts past) past l) (calls : List Call) :
    ∃ all, Learned all (heard contacts (past ++ l.reports calls)) (past ++ l.reports calls)
      (l.run calls).2 := by
  induction calls generalizing l all past with
  | nil =>
    rw [reports, List.append_nil]
    exact ⟨all, learned⟩
  | cons call calls ih =>
    rcases learned.call call with ⟨all, learned⟩
    rw [reports, ← List.append_assoc, run_cons]
    exact ih learned

theorem Learned.start (target : NodeId) (kind : LookupKind) (announce : Bool)
    (concurrency maxRounds : Nat) (contacts : List Contact) (seeds : List Destination) :
    ∃ all, Learned all (heard contacts []) []
      (start target kind announce concurrency maxRounds contacts seeds) := by
  have hEmpty : Learned [] [] []
      { target, kind, announce, concurrency := max concurrency 1, maxRounds, seeds } :=
    ⟨⟨rfl, List.Pairwise.nil, by simp, List.nodup_nil⟩, by simp, by simp, nofun, by simp⟩
  rw [heard, List.flatMap_nil, List.append_nil]
  exact hEmpty.addCandidates contacts

end Run

/-! ## The outcome -/

/-- All nodes heard of, under each identifier the first one, from the nearest to the farthest. -/
structure Nearest (target : NodeId) (known nodes : List Contact) : Prop where
  sorted : nodes.Pairwise fun a b =>
    (target.distance a.id).word.toNat < (target.distance b.id).word.toNat
  first : ∀ contact, contact ∈ nodes ↔ known.find? (·.id = contact.id) = some contact

/-- The outcome that belongs to some nodes to start with and to some reports. -/
structure Supported (target : NodeId) (contacts : List Contact) (reports : List Report)
    (outcome : LookupOutcome) : Prop where
  /-- Every node is vouched for, and every token is that of the answer by which its node is. -/
  closest : ∀ contact ∈ outcome.closest,
    ∃ answer, Vouched (heard contacts reports) reports contact answer
  targets : ∀ target ∈ outcome.announceTargets,
    ∃ answer, Vouched (heard contacts reports) reports target.1 answer ∧
      answer.token = some target.2
  /-- Of the sixty-four nearest nodes, those that stand by an answer are listed. -/
  whole : ∃ nodes, Nearest target (heard contacts reports) nodes ∧
    outcome.closest =
      ((nodes.take 64).filter fun contact => (standing? reports contact.id).isSome).take 8 ∧
    outcome.announceTargets =
      ((nodes.take 64).filterMap fun contact =>
        ((standing? reports contact.id).bind (·.token)).map (contact, ·)).take 16

section Outcome

variable {l : Lookup} {all : List Candidate} {known : List Contact} {past : List Report}
  {c : Candidate} {contact : Contact} {answer : Answer}

theorem vouched_of_standing (first : known.find? (·.id = contact.id) = some contact)
    (stands : standing? past contact.id = some answer) : Vouched known past contact answer := by
  refine ⟨first, stands, fun own => ?_⟩
  rw [← own] at stands ⊢
  exact find?_sender_of_standing? stands

theorem isSome_answered? : (answered? c).isSome = decide (c.state = .responded) := by
  unfold answered?
  split
  next responded => exact (decide_eq_true responded).symm
  next silent => exact (decide_eq_false silent).symm

theorem Learned.nearest (learned : Learned all known past l) :
    Nearest l.target known (all.map (·.contact)) where
  sorted := by
    have hSorted := learned.recorded.sorted
    rw [List.pairwise_map] at hSorted ⊢
    refine hSorted.imp fun closer => ?_
    rw [NodeId.cmpDistance_eq_compare] at closer
    exact Nat.compare_eq_lt.mp closer
  first := by
    intro contact
    constructor
    · intro member
      rcases List.mem_map.mp member with ⟨c, among, rfl⟩
      exact learned.first c among
    · intro first
      rcases learned.complete contact (List.mem_of_find?_eq_some first) with ⟨c, among, same⟩
      have hFirst := learned.first c among
      rw [same, first] at hFirst
      exact List.mem_map.mpr ⟨c, among, (Option.some.inj hFirst).symm⟩

theorem Learned.closest_finish (learned : Learned all known past l) :
    l.finish.closest = (((all.map (·.contact)).take 64).filter fun contact =>
      (standing? past contact.id).isSome).take 8 := by
  have hSame : ∀ c ∈ all.take 64, decide (c.state = .responded) =
      (standing? past c.contact.id).isSome := by
    intro c member
    rw [← isSome_answered?, learned.answered c (List.mem_of_mem_take member), Option.isSome_map]
  show (l.responders.take 8).map (·.contact) = _
  rw [List.map_take, responders, learned.recorded.remembered]
  refine congrArg (List.take 8) ?_
  rw [← List.map_take, List.filter_map]
  exact congrArg (List.map (·.contact)) (List.filter_congr hSame)

theorem Learned.announceTargets_finish (learned : Learned all known past l) :
    l.finish.announceTargets = (((all.map (·.contact)).take 64).filterMap fun contact =>
      ((standing? past contact.id).bind (·.token)).map (contact, ·)).take 16 := by
  have hSame : ∀ c ∈ all.take 64,
      (if decide (c.state = .responded) = true then c.token.map (c.contact, ·) else none) =
        ((standing? past c.contact.id).bind (·.token)).map (c.contact, ·) := by
    intro c member
    calc
      _ = (answered? c).bind (·.map (c.contact, ·)) := by
        unfold answered?
        by_cases responded : c.state = .responded
        · rw [if_pos (decide_eq_true responded), if_pos responded]
          rfl
        · rw [if_neg (fun found => responded (of_decide_eq_true found)), if_neg responded]
          rfl
      _ = ((standing? past c.contact.id).map (·.token)).bind (·.map (c.contact, ·)) := by
        rw [learned.answered c (List.mem_of_mem_take member)]
      _ = _ := by cases standing? past c.contact.id <;> rfl
  refine congrArg (List.take 16) ?_
  rw [responders, learned.recorded.remembered, List.filterMap_filter, ← List.map_take,
    List.filterMap_map]
  exact List.filterMap_congr hSame

/-- What is listed is vouched for. -/
theorem Learned.supported {contacts : List Contact}
    (learned : Learned all (heard contacts past) past l) :
    Supported l.target contacts past l.finish := by
  have hNearest := learned.nearest
  refine ⟨?_, ?_, _, hNearest, learned.closest_finish, learned.announceTargets_finish⟩
  · intro contact reported
    rw [learned.closest_finish] at reported
    rcases List.mem_filter.mp (List.mem_of_mem_take reported) with ⟨near, stands⟩
    rcases Option.isSome_iff_exists.mp stands with ⟨answer, stands⟩
    exact ⟨answer, vouched_of_standing ((hNearest.first _).mp (List.mem_of_mem_take near)) stands⟩
  · intro target reported
    rw [learned.announceTargets_finish] at reported
    rcases List.mem_filterMap.mp (List.mem_of_mem_take reported) with ⟨contact, near, found⟩
    rcases Option.map_eq_some_iff.mp found with ⟨token, held, rfl⟩
    rcases Option.bind_eq_some_iff.mp held with ⟨answer, stands, given⟩
    exact ⟨answer,
      vouched_of_standing ((hNearest.first _).mp (List.mem_of_mem_take near)) stands, given⟩

end Outcome

/-- Whatever a lookup is called for, its outcome names the nodes heard of first under the
identifiers that stand by an answer, and with the tokens of these answers. -/
theorem supported_run (target : NodeId) (kind : LookupKind) (announce : Bool)
    (concurrency maxRounds : Nat) (contacts : List Contact) (seeds : List Destination)
    (calls : List Call) :
    Supported target contacts
      ((start target kind announce concurrency maxRounds contacts seeds).reports calls)
      ((start target kind announce concurrency maxRounds contacts seeds).run calls).2.finish := by
  have hTracked :=
    (Tracked.start target kind announce concurrency maxRounds contacts seeds).run calls
  rcases Learned.start target kind announce concurrency maxRounds contacts seeds with
    ⟨start, learned⟩
  rcases learned.run calls with ⟨all, learned⟩
  have hSupported := learned.supported
  rw [hTracked.same_target] at hSupported
  exact hSupported

/-- The one node that is asked answers under the identifier of another one.  This other node is
reported with the token, though it has neither answered nor been asked. -/
theorem closest_of_unasked :
    let l := start .zero .getPeers true 1 8 [⟨⟨1⟩, ⟨.v4 1, 1⟩⟩, ⟨⟨2⟩, ⟨.v4 2, 1⟩⟩] []
    let calls : List Call := [.step, .sent ⟨1⟩ (some ⟨1⟩),
      .response ⟨1⟩ ⟨⟨2⟩, ⟨.v4 1, 1⟩⟩ { sender := ⟨2⟩, token := some [0xaa] } [], .step]
    (l.run calls).1 = [.query [(.ofAddress ⟨.v4 1, 1⟩, some ⟨1⟩)], .done] ∧
      ((l.reports calls).filterMap Report.answer?).map (·.sender) = [⟨⟨2⟩, ⟨.v4 1, 1⟩⟩] ∧
      (l.run calls).2.finish.closest = [⟨⟨2⟩, ⟨.v4 2, 1⟩⟩] ∧
      (l.run calls).2.finish.announceTargets = [(⟨⟨2⟩, ⟨.v4 2, 1⟩⟩, [0xaa])] := by
  decide +kernel

end Lookup
end Kademlia
