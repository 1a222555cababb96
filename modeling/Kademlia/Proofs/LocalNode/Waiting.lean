import Kademlia.Proofs.LocalNode.Course
import Kademlia.Proofs.LocalNode.Situation
import Mathlib.Data.List.Induction

namespace Kademlia

/-!
# Waiting for a node to join

While an attempt to join goes on, lookups are kept waiting, and calls wait for its result.  They are
released when an attempt finds a good node, and when three attempts have failed one after another.
The attempts go on after that, but a fourth one that fails releases nobody, nor does any later one:
whoever comes to wait then does so until an attempt succeeds (`conclusion_of_run`).
-/

namespace Situation

variable {s t : Situation} {now : Instant} {lookUp : String → List Destination}
  {entrants : Contact → Prop}

/-! ## Attempts -/

@[simp]
theorem attempts_request (s : Situation) (request : LookupRequest) :
    (s.request request).bootstrap.attempts = s.bootstrap.attempts := by
  rw [Situation.request]
  split <;> rfl

@[simp]
theorem attempts_requests (s : Situation) (requests : List LookupRequest) :
    (requests.foldl Situation.request s).bootstrap.attempts = s.bootstrap.attempts :=
  foldl_keeps (fun s : Situation => s.bootstrap.attempts) attempts_request s requests

@[simp]
theorem attempts_join (s : Situation) (lookUp : String → List Destination) :
    (s.join lookUp).bootstrap.attempts = s.bootstrap.attempts := by
  rw [join]
  split
  · rfl
  · split <;> rfl

@[simp]
theorem attempts_rejoin (s : Situation) (lookUp : String → List Destination) :
    (s.rejoin lookUp).bootstrap.attempts = s.bootstrap.attempts := by
  rw [rejoin]
  split
  · exact attempts_join ..
  · rfl

/-- An attempt is counted only when it is over. -/
theorem Handled.attempts (handled : Handled lookUp entrants s t) :
    t.bootstrap.attempts = s.bootstrap.attempts := by
  cases handled with
  | waits => rfl
  | told => rfl
  | requested requests => exact attempts_requests ..
  | ordered => exact attempts_join ..
  | learned => rfl
  | maintained table requests => rw [attempts_requests, attempts_rejoin]

/-! ## Those who wait -/

/-- Whoever waits in one situation waits in another one as well. -/
structure Extended (s t : Situation) : Prop where
  waiting : s.waiting <+: t.waiting
  queued : s.queued <+: t.queued

theorem Extended.of_eq (waiting : t.waiting = s.waiting) (queued : t.queued = s.queued) :
    Extended s t :=
  ⟨waiting ▸ List.prefix_rfl, queued ▸ List.prefix_rfl⟩

theorem extended_requests (requests : List LookupRequest) (s : Situation) :
    Extended s (requests.foldl Situation.request s) := by
  induction requests generalizing s with
  | nil => exact .of_eq rfl rfl
  | cons request requests ih =>
    have hFirst : Extended s (s.request request) := by
      rw [Situation.request]
      split
      · exact ⟨List.prefix_rfl, List.prefix_append ..⟩
      · exact .of_eq rfl rfl
    have hLater := ih (s.request request)
    exact ⟨hFirst.waiting.trans hLater.waiting, hFirst.queued.trans hLater.queued⟩

@[simp]
theorem joinLookup_requests (s : Situation) (requests : List LookupRequest) :
    (requests.foldl Situation.request s).joinLookup = s.joinLookup := by
  refine foldl_keeps joinLookup (fun s request => ?_) s requests
  rw [Situation.request]
  split <;> rfl

/-- The order to join releases those who wait only if there is nobody to join through. -/
theorem extended_join (s : Situation) (searching : (s.join lookUp).joinLookup ≠ none) :
    Extended s (s.join lookUp) := by
  rw [join] at searching ⊢
  by_cases going : s.joinLookup.isSome = true
  · rw [if_pos going]
    exact .of_eq rfl rfl
  · rw [if_neg going] at searching ⊢
    by_cases alone : (!s.bootstrap.hasSeeds) = true
    · rw [if_pos alone] at searching
      exact absurd (Option.not_isSome_iff_eq_none.mp going) searching
    · rw [if_neg alone]
      exact .of_eq rfl rfl

theorem extended_rejoin (s : Situation) (searching : (s.rejoin lookUp).joinLookup ≠ none) :
    Extended s (s.rejoin lookUp) := by
  rw [rejoin] at searching ⊢
  by_cases lost : s.table.isEmpty ∧ s.bootstrap.hasSeeds ∧ s.bootstrap.state = .bootstrapped
  · rw [if_pos lost] at searching ⊢
    have hJoin := extended_join _ searching
    exact ⟨hJoin.waiting, hJoin.queued⟩
  · rw [if_neg lost]
    exact .of_eq rfl rfl

/-- As long as an attempt goes on, nobody is released. -/
theorem Handled.extended (handled : Handled lookUp entrants s t) (searching : t.joinLookup ≠ none) :
    Extended s t := by
  cases handled with
  | waits => exact ⟨List.prefix_append .., List.prefix_rfl⟩
  | told => exact .of_eq rfl rfl
  | requested requests => exact extended_requests requests s
  | ordered => exact extended_join s searching
  | learned => exact .of_eq rfl rfl
  | maintained table requests =>
    rw [joinLookup_requests] at searching
    have hRejoined := extended_rejoin _ searching
    have hRequested := extended_requests requests (rejoin { s with table } lookUp)
    exact ⟨hRejoined.waiting.trans hRequested.waiting, hRejoined.queued.trans hRequested.queued⟩

/-! ## The end of an attempt -/

/-- Those who wait are released, and are told how joining went. -/
structure Released (s t : Situation) (success : Bool) : Prop where
  waiting : t.waiting = []
  queued : t.queued = []
  launched : t.started = s.started + s.queued.length
  answered : t.verdicts = s.verdicts ++ s.waiting.map (·, success)

/-- Those who wait go on waiting. -/
structure Kept (s t : Situation) : Prop where
  waiting : t.waiting = s.waiting
  queued : t.queued = s.queued
  launched : t.started = s.started
  answered : t.verdicts = s.verdicts

/-- What an event means for those who wait, if so many attempts have failed one after another: the
attempt goes on, or it has found a good node or none. -/
inductive Conclusion (failed : Nat) (s t : Situation) : Option Bool → Prop
  | going : Kept s t → Conclusion failed s t none
  | joined : Released s t true → Conclusion failed s t (some true)
  | exhausted : failed = 3 → Released s t false → Conclusion failed s t (some false)
  | further : failed ≠ 3 → Kept s t → Conclusion failed s t (some false)

theorem attempts_judge (s : Situation) (now : Instant) :
    (s.judge now).bootstrap.attempts =
      if 0 < s.table.countWith now .good then 0 else s.bootstrap.attempts + 1 := by
  unfold judge Bootstrap.onLookupCompleted
  by_cases good : 0 < s.table.countWith now .good
  · rw [if_pos good, if_pos good]
    rfl
  · rw [if_neg good, if_neg good]
    dsimp only
    split <;> rfl

theorem conclusion_judge (s : Situation) (now : Instant) :
    Conclusion (s.bootstrap.attempts + 1) s (s.judge now)
      (some (0 < s.table.countWith now .good : Bool)) := by
  unfold judge Bootstrap.onLookupCompleted
  by_cases good : 0 < s.table.countWith now .good
  · rw [if_pos good, decide_eq_true good]
    exact .joined ⟨rfl, rfl, rfl, rfl⟩
  · rw [if_neg good, decide_eq_false good]
    dsimp only
    split
    next third => exact .exhausted (of_decide_eq_true third) ⟨rfl, rfl, rfl, rfl⟩
    next other => exact .further (fun third => other (decide_eq_true third)) ⟨rfl, rfl, rfl, rfl⟩

end Situation

namespace LocalNode

open Situation (Extended Conclusion)

variable {env : Surroundings}

/-- A node amid an event: it has handled the event itself, but not yet wrapped up the lookups that
are done. -/
def amid (n : LocalNode) (env : Surroundings) (event : Event) : LocalNode :=
  { n with outbox := [] }.handleEvent env event

/-- Whether an attempt to join has found a good node, if it ends at an event. -/
def attemptEnd (n : LocalNode) (env : Surroundings) (event : Event) : Option Bool :=
  if (n.amid env event).bootstrapLookup.isSome ∧ (n.step env event).bootstrapLookup = none then
    some (0 < (n.step env event).table.countWith env.now .good)
  else none

/-- Counts an event among the attempts to join that have failed one after another. -/
def tally (past : Nat × LocalNode) (event : Surroundings × Event) : Nat × LocalNode :=
  (match past.2.attemptEnd event.1 event.2 with
    | none => past.1
    | some true => 0
    | some false => past.1 + 1,
  past.2.step event.1 event.2)

/-- How many attempts to join have failed one after another in the course of some events. -/
def failures (n : LocalNode) (events : List (Surroundings × Event)) : Nat :=
  (events.foldl tally (0, n)).1

/-- Apart from what it does to the situation at first, an event may end an attempt. -/
theorem attemptEnd_cases {n : LocalNode} {event : Event}
    (running : (n.step env event).running = true) :
    (n.attemptEnd env event = none ∧ (n.step env event).situation = (n.amid env event).situation) ∨
      (n.attemptEnd env event =
          some (0 < (n.amid env event).table.countWith env.now .good : Bool) ∧
        (n.amid env event).situation.joinLookup ≠ none ∧
        (n.step env event).situation = (n.amid env event).situation.judge env.now) := by
  have hWrapped := @situation_wrapUp env (n.amid env event)
  have hStep : n.step env event = (n.amid env event).wrapUp env := (step_of_running running).2
  rw [← hStep] at hWrapped
  rw [attemptEnd]
  rcases hWrapped with same | ⟨searching, judged⟩
  · refine .inl ⟨if_neg ?_, same⟩
    rintro ⟨before, after⟩
    have hSame : (n.step env event).bootstrapLookup = (n.amid env event).bootstrapLookup :=
      congrArg Situation.joinLookup same
    rw [← hSame, after] at before
    cases before
  · have hAfter : (n.step env event).bootstrapLookup = none :=
      (congrArg Situation.joinLookup judged).trans (Situation.joinLookup_judge ..)
    have hTable : (n.step env event).table = (n.amid env event).table :=
      (congrArg Situation.table judged).trans (Situation.table_judge ..)
    rw [if_pos ⟨Option.isSome_iff_ne_none.mpr searching, hAfter⟩, hTable]
    exact .inr ⟨rfl, searching, judged⟩

theorem handled_amid (n : LocalNode) (event : Event) :
    Situation.Handled env.lookUp (n.Introduced event) { n.situation with verdicts := [] }
      (n.amid env event).situation :=
  handled_handleEvent { n with outbox := [] } event

theorem tally_snd (events : List (Surroundings × Event)) (past : Nat × LocalNode)
    (history : List Effect) :
    (events.foldl tally past).2 = (events.foldl advance (history, past.2)).2 := by
  induction events generalizing past history with
  | nil => rfl
  | cons event events ih => exact ih (tally past event) _

theorem failures_append (n : LocalNode) (events : List (Surroundings × Event))
    (event : Surroundings × Event) :
    n.failures (events ++ [event]) = (tally (n.failures events, (n.run events).2) event).1 := by
  have hNode : (events.foldl tally (0, n)).2 = (n.run events).2 := tally_snd events (0, n) []
  rw [failures, failures, List.foldl_append, List.foldl_cons, List.foldl_nil, ← hNode]

/-- The attempts that a node remembers are those that have failed one after another. -/
theorem attempts_step {n : LocalNode} {event : Event}
    (running : (n.step env event).running = true) :
    (n.step env event).bootstrap.attempts = (tally (n.bootstrap.attempts, n) (env, event)).1 := by
  have hAmid : (n.amid env event).bootstrap.attempts = n.bootstrap.attempts :=
    (handled_amid n event).attempts
  rw [tally]
  rcases attemptEnd_cases running with ⟨going, same⟩ | ⟨ended, -, judged⟩
  · have hSame := congrArg (fun s : Situation => s.bootstrap.attempts) same
    rw [going]
    exact hSame.trans hAmid
  · have hJudged := congrArg (fun s : Situation => s.bootstrap.attempts) judged
    rw [ended]
    refine (hJudged.trans (Situation.attempts_judge ..)).trans ?_
    change (if 0 < (n.amid env event).table.countWith env.now .good then 0
      else (n.amid env event).bootstrap.attempts + 1) = _
    rw [hAmid]
    split
    next good => rw [decide_eq_true good]
    next nobody => rw [decide_eq_false nobody]

theorem attempts_run {n : LocalNode} (fresh : n.bootstrap.attempts = 0)
    (events : List (Surroundings × Event)) (running : (n.run events).2.running = true) :
    (n.run events).2.bootstrap.attempts = n.failures events := by
  induction events using List.reverseRecOn with
  | nil => exact fresh
  | append_singleton events event ih =>
    rw [run_append] at running ⊢
    rw [failures_append, ← ih (step_of_running running).1]
    exact attempts_step running

/-- Those who wait are released at the event at which an attempt to join finds a good node, and at
that at which the third attempt in a row fails, but at none at which a later one fails. -/
theorem conclusion_of_run (options : Options) (localAddress : Address) (now : Instant)
    (secrets : Draws (BitVec 32)) (firstTransaction : TransactionId)
    (events : List (Surroundings × Event)) (env : Surroundings) (event : Event) :
    let start := start options localAddress now secrets firstTransaction
    let n := (start.run events).2
    (n.step env event).running = true →
      Conclusion (start.failures (events ++ [(env, event)])) (n.amid env event).situation
        (n.step env event).situation (n.attemptEnd env event) ∧
      (n.attemptEnd env event ≠ none → Extended n.situation (n.amid env event).situation) := by
  intro start n running
  have hAttempts : n.bootstrap.attempts = start.failures events :=
    attempts_run rfl events (step_of_running running).1
  have hHandled := @handled_amid env n event
  rcases attemptEnd_cases running with ⟨going, same⟩ | ⟨ended, searching, judged⟩
  · rw [going, same]
    exact ⟨.going ⟨rfl, rfl, rfl, rfl⟩, fun ends => absurd rfl ends⟩
  · have hExtended := hHandled.extended searching
    refine ⟨?_, fun _ => ⟨hExtended.waiting, hExtended.queued⟩⟩
    have hAmid : (n.amid env event).situation.bootstrap.attempts = start.failures events :=
      hHandled.attempts.trans hAttempts
    have hConclusion := Situation.conclusion_judge (n.amid env event).situation env.now
    rw [hAmid] at hConclusion
    rw [failures_append, tally, ended, judged]
    change Conclusion _ _ _ (some (0 < (n.amid env event).table.countWith env.now .good : Bool))
      at hConclusion
    generalize (0 < (n.amid env event).table.countWith env.now .good : Bool) = good
      at hConclusion ⊢
    cases hConclusion with
    | joined released => exact .joined released
    | exhausted third released => exact .exhausted third released
    | further other kept => exact .further other kept

/-- A node that knows one address to join through. -/
def lonely : LocalNode :=
  start { id := .zero, startingNodes := [⟨.v4 1, 1⟩] } ⟨.v4 2, 2⟩ 0 default ⟨0⟩

/-- Surroundings in which nothing comes back, whether or not anything gets out. -/
def silent (delivers : Bool) (seconds : Nat) : Surroundings :=
  ⟨Duration.seconds seconds, fun _ _ => delivers, fun _ => [], .asSent⟩

/-- Three attempts to join fail at once.  In the course of the fourth one, which goes on for a
while, a lookup and a call come to wait. -/
def lateWaiting : List (Surroundings × Event) :=
  [(silent false 0, .command .startBootstrap), (silent false 10, .wake), (silent false 20, .wake),
    (silent true 30, .wake),
    (silent true 31, .command (.lookup ⟨⟨1⟩, .findNode, false, .contacts ⟨0⟩⟩)),
    (silent true 31, .command (.awaitBootstrap ⟨1⟩))]

theorem conclusion_of_fourth_failure :
    let n := (lonely.run lateWaiting).2
    (n.step (silent true 32) .wake).running = true ∧
      Conclusion (lonely.failures (lateWaiting ++ [(silent true 32, .wake)]))
        (n.amid (silent true 32) .wake).situation (n.step (silent true 32) .wake).situation
        (n.attemptEnd (silent true 32) .wake) ∧
      (n.attemptEnd (silent true 32) .wake ≠ none →
        Extended n.situation (n.amid (silent true 32) .wake).situation) := by
  have hRunning : ((lonely.run lateWaiting).2.step (silent true 32) .wake).running = true := by
    decide +kernel
  exact ⟨hRunning, conclusion_of_run _ _ _ _ _ lateWaiting _ _ hRunning⟩

theorem waiting_after_fourth_failure :
    let n := (lonely.run lateWaiting).2
    n.attemptEnd (silent true 32) .wake = some false ∧
      lonely.failures (lateWaiting ++ [(silent true 32, .wake)]) = 4 ∧
      (n.step (silent true 32) .wake).waiting = [⟨1⟩] ∧
      (n.step (silent true 32) .wake).queued = [⟨⟨1⟩, .findNode, false, .contacts ⟨0⟩⟩] := by
  decide +kernel

end LocalNode
end Kademlia
