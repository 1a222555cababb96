import Kademlia.Routing.Node
import Mathlib.Data.List.Induction

namespace Kademlia
namespace Routing
namespace Node

/-!
# How far a node can be relied on

A node is judged by two counts.  One is of the failures since it last answered a query, and a query
of its own does not stop that count.  The other is of the time since it was last heard from, in
whichever way.  So its status can be told from what has happened to it and from how it became known
(`status_of_history`), and a node that has become bad stays so until it answers.
-/

/-- What can happen to a node. -/
inductive Event where
  | requested
  | answered
  | failed
  | versioned (version : Option Bytes)
  | passed (span : Duration)
deriving DecidableEq

namespace Event

/-- Whether the node was heard from. -/
def isContact : Event → Bool
  | requested | answered => true
  | failed | versioned _ | passed _ => false

/-- How much time passes. -/
def span : Event → Duration
  | passed span => span
  | requested | answered | failed | versioned _ => 0

end Event

/-- How a node becomes known: from itself, or from others. -/
inductive Origin where
  | heardFrom
  | heardOf
deriving DecidableEq

/-- The node as it is when it becomes known. -/
def Origin.node (origin : Origin) (born : Instant) (contact : Contact) : Node :=
  match origin with
  | heardFrom => good born contact
  | heardOf => questionable born contact

/-- A node and the time at which it is looked at. -/
structure Sight where
  node : Node
  now : Instant

namespace Sight

/-- What an event makes of a node. -/
def step (sight : Sight) : Event → Sight
  | .requested => { sight with node := sight.node.requested sight.now }
  | .answered => { sight with node := sight.node.answered sight.now }
  | .failed => { sight with node := sight.node.failed }
  | .versioned version => { sight with node := sight.node.withVersion version }
  | .passed span => { sight with now := sight.now + span }

def run (sight : Sight) (events : List Event) : Sight :=
  events.foldl step sight

def status (sight : Sight) : Status :=
  sight.node.status sight.now

def isPingable (sight : Sight) : Bool :=
  sight.node.isPingable sight.now

end Sight

variable {origin : Origin} {events : List Event} {event : Event} {sight : Sight}

/-! ## What a history tells -/

/-- What has happened since the last event of a kind, the latest first: everything, if there was
none. -/
def since (kind : Event → Bool) (events : List Event) : List Event :=
  events.reverse.takeWhile fun event => !kind event

/-- How many queries have failed since the node last answered one. -/
def failuresSinceAnswer (events : List Event) : Nat :=
  (since (· = .answered) events).count .failed

/-- How much time passes in the course of some events. -/
def elapsed : List Event → Duration
  | [] => 0
  | event :: events => event.span + elapsed events

/-- The node was heard from, if only when it became known. -/
def Origin.Heard (origin : Origin) (events : List Event) : Prop :=
  origin = heardFrom ∨ ∃ event ∈ events, event.isContact = true

instance (origin : Origin) (events : List Event) : Decidable (origin.Heard events) :=
  inferInstanceAs (Decidable (_ ∨ _))

/-- The node was heard from, and the last time was less than a span of time ago. -/
def Origin.HeardWithin (origin : Origin) (span : Duration) (events : List Event) : Prop :=
  origin.Heard events ∧ elapsed (since Event.isContact events) < span

instance (origin : Origin) (span : Duration) (events : List Event) :
    Decidable (origin.HeardWithin span events) :=
  inferInstanceAs (Decidable (_ ∧ _))

theorem since_append (kind : Event → Bool) (events : List Event) (event : Event) :
    since kind (events ++ [event]) = if kind event then [] else event :: since kind events := by
  rw [since, List.reverse_concat, List.takeWhile_cons]
  cases kind event <;> rfl

theorem failuresSinceAnswer_append : failuresSinceAnswer (events ++ [event]) =
    if event = .answered then 0
    else failuresSinceAnswer events + if event = .failed then 1 else 0 := by
  unfold failuresSinceAnswer
  rw [since_append]
  by_cases answer : event = .answered
  · simp [answer]
  · simp [answer, List.count_cons]

theorem elapsed_since_append : elapsed (since Event.isContact (events ++ [event])) =
    if event.isContact then 0 else event.span + elapsed (since Event.isContact events) := by
  rw [since_append]
  cases event.isContact <;> rfl

theorem heard_append :
    origin.Heard (events ++ [event]) ↔ origin.Heard events ∨ event.isContact = true := by
  unfold Origin.Heard
  rw [or_assoc]
  refine or_congr_right ?_
  simp [or_and_right, exists_or]

/-! ## What a node remembers of its history -/

/-- A node remembers when it was heard from last, and the failures since it last answered. -/
structure Remembers (origin : Origin) (events : List Event) (sight : Sight) : Prop where
  failures : sight.node.failures = failuresSinceAnswer events
  heard : origin.Heard events → ∃ time, sight.node.lastUpdate = some time ∧
    sight.now = time + elapsed (since Event.isContact events)
  unheard : ¬ origin.Heard events → sight.node.lastUpdate = none

theorem remembers_new (origin : Origin) (born : Instant) (contact : Contact) :
    Remembers origin [] ⟨origin.node born contact, born⟩ := by
  cases origin with
  | heardFrom => exact ⟨rfl, fun _ => ⟨born, rfl, rfl⟩, fun unheard => absurd (.inl rfl) unheard⟩
  | heardOf =>
    refine ⟨rfl, ?_, fun _ => rfl⟩
    rintro (impossible | ⟨_, none, -⟩)
    · cases impossible
    · cases none

/-- Unless the node is heard from, its last contact stays where it was. -/
theorem Remembers.of_silent {next : Sight} (remembers : Remembers origin events sight)
    (silent : event.isContact = false) (now : next.now = sight.now + event.span)
    (lastUpdate : next.node.lastUpdate = sight.node.lastUpdate)
    (failures : next.node.failures = failuresSinceAnswer (events ++ [event])) :
    Remembers origin (events ++ [event]) next := by
  have hHeard : origin.Heard (events ++ [event]) ↔ origin.Heard events := by
    rw [heard_append, silent]
    exact or_iff_left Bool.false_ne_true
  refine ⟨failures, fun heard => ?_, fun unheard => ?_⟩
  · rcases remembers.heard (hHeard.mp heard) with ⟨time, last, past⟩
    refine ⟨time, lastUpdate.trans last, ?_⟩
    rw [now, past, elapsed_since_append, silent, if_neg Bool.false_ne_true, Nat.add_comm event.span,
      Nat.add_assoc]
  · rw [lastUpdate]
    exact remembers.unheard (mt hHeard.mpr unheard)

theorem Remembers.of_contact {next : Sight} (contact : event.isContact = true)
    (lastUpdate : next.node.lastUpdate = some next.now)
    (failures : next.node.failures = failuresSinceAnswer (events ++ [event])) :
    Remembers origin (events ++ [event]) next := by
  refine ⟨failures, fun _ => ⟨next.now, lastUpdate, ?_⟩, fun unheard => ?_⟩
  · rw [elapsed_since_append, if_pos contact, Nat.add_zero]
  · exact absurd (heard_append.mpr (.inr contact)) unheard

theorem Remembers.step (remembers : Remembers origin events sight) (event : Event) :
    Remembers origin (events ++ [event]) (sight.step event) := by
  have hFailures := remembers.failures
  cases event with
  | requested =>
    refine .of_contact rfl rfl ?_
    rw [failuresSinceAnswer_append]
    exact hFailures
  | answered =>
    refine .of_contact rfl rfl ?_
    rw [failuresSinceAnswer_append]
    rfl
  | failed =>
    refine remembers.of_silent rfl rfl rfl ?_
    rw [failuresSinceAnswer_append]
    exact congrArg (· + 1) hFailures
  | versioned version =>
    refine remembers.of_silent rfl rfl rfl ?_
    rw [failuresSinceAnswer_append]
    exact hFailures
  | passed span =>
    refine remembers.of_silent rfl rfl rfl ?_
    rw [failuresSinceAnswer_append]
    exact hFailures

theorem remembers_run (origin : Origin) (born : Instant) (contact : Contact)
    (events : List Event) :
    Remembers origin events (Sight.run ⟨origin.node born contact, born⟩ events) := by
  induction events using List.reverseRecOn with
  | nil => exact remembers_new origin born contact
  | append_singleton events event ih =>
    rw [Sight.run, List.foldl_append]
    exact ih.step event

/-! ## Status -/

theorem Remembers.status (remembers : Remembers origin events sight) :
    sight.status =
      if maxFailures ≤ failuresSinceAnswer events then .bad
      else if origin.HeardWithin freshness events then .good else .questionable := by
  rw [Sight.status, Node.status, remembers.failures]
  congr 1
  by_cases heard : origin.Heard events
  · rcases remembers.heard heard with ⟨time, last, past⟩
    have hAge : sight.now - time = elapsed (since Event.isContact events) := by
      rw [past, Nat.add_sub_cancel_left]
    rw [last]
    dsimp only
    rw [hAge]
    simp only [Origin.HeardWithin, heard, true_and]
  · rw [remembers.unheard heard, if_neg fun within => heard within.1]

theorem isPingable_eq_false_iff : sight.isPingable = false ↔ maxFailures ≤ sight.node.failures := by
  rw [Sight.isPingable, Node.isPingable, decide_eq_false_iff_not, not_not, Node.status]
  split
  next many => exact iff_of_true rfl many
  next few =>
    refine iff_of_false ?_ few
    split
    · split <;> simp
    · simp

/-- Only an answer takes failures back. -/
theorem failures_le_step (other : event ≠ .answered) :
    sight.node.failures ≤ (sight.step event).node.failures := by
  cases event with
  | answered => exact absurd rfl other
  | failed => exact Nat.le_succ _
  | requested | versioned | passed => exact Nat.le_refl _

/-- A node that is bad stays so until it answers, whatever else is heard from it. -/
theorem not_isPingable_run (unanswered : .answered ∉ events) (bad : sight.isPingable = false) :
    (sight.run events).isPingable = false := by
  induction events generalizing sight with
  | nil => exact bad
  | cons event events ih =>
    rw [List.mem_cons, not_or] at unanswered
    refine ih unanswered.2 ?_
    rw [isPingable_eq_false_iff] at bad ⊢
    exact Nat.le_trans bad (failures_le_step (Ne.symm unanswered.1))

/-- A node is bad after two failures without an answer in between.  Otherwise it is good for a
quarter of an hour after it was heard from, and questionable after that or if it never was.  No
request, and nothing else but an answer, makes a bad node one that may be queried. -/
theorem status_of_history (origin : Origin) (born : Instant) (contact : Contact)
    (events : List Event) :
    let sight := Sight.run ⟨origin.node born contact, born⟩ events
    sight.status =
        (if 2 ≤ failuresSinceAnswer events then .bad
        else if origin.HeardWithin (.minutes 15) events then .good
        else .questionable) ∧
      ∀ later, .answered ∉ later → sight.isPingable = false →
        (sight.run later).isPingable = false := by
  intro sight
  exact ⟨(remembers_run origin born contact events).status, fun _ => not_isPingable_run⟩

/-- A node of which others have told, which answers once and then leaves two queries unanswered; its
own query in between is recent, and is of no use to it. -/
def importunate : List Event :=
  [.answered, .failed, .passed (.minutes 14), .requested, .versioned (some [0x4c]), .failed]

theorem status_of_importunate :
    let sight := Sight.run ⟨Origin.heardOf.node 0 ⟨⟨1⟩, ⟨.v4 1, 1⟩⟩, 0⟩ importunate
    sight.status = .bad ∧ .answered ∉ [Event.requested, .passed 1] ∧ sight.isPingable = false ∧
      (sight.run [.requested, .passed 1]).isPingable = false := by
  have hHistory := status_of_history .heardOf 0 ⟨⟨1⟩, ⟨.v4 1, 1⟩⟩ importunate
  have hUnanswered : .answered ∉ [Event.requested, .passed 1] := by decide
  have hBad := hHistory.1.trans (if_pos (by decide))
  have hPingable := decide_eq_false (not_not.mpr hBad)
  exact ⟨hBad, hUnanswered, hPingable, hHistory.2 _ hUnanswered hPingable⟩

end Node
end Routing
end Kademlia
