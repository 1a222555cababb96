import Kademlia.Proofs.NodeId.Beginning
import Kademlia.Proofs.Routing.Nearest
import Kademlia.Routing.Refresh
import Mathlib.Order.Interval.Finset.Nat

namespace Kademlia
namespace Routing

/-!
# The buckets take turns

The refresh of a table counts its own ticks and nothing else.  So the bit that a tick turns over can
be told from the number of ticks before it, whatever happens to the table and to the clock between
them (`revolves_of_run`): the identifier always has that bit, and it takes 160 ticks to come round.
Whom the tick asks depends on the table as it is at that time.
-/

namespace Table

variable {own target : NodeId} {t : Table} {now : Instant} {count : Nat}

/-- What can happen to a table. -/
inductive Change where
  | added (node : Node)
  | requested (contact : Contact) (version : Option Bytes)
  | answered (contact : Contact) (version : Option Bytes)
  | learned (contacts : List Contact)
  | failed (contact : Contact)
  | failedAddress (address : Address)
  | removedStale (expiry : Duration)
deriving DecidableEq

/-- The table after a change. -/
def change (t : Table) (now : Instant) : Change → Table
  | .added node => t.add now node
  | .requested contact version => t.requested now contact version
  | .answered contact version => t.answered now contact version
  | .learned contacts => t.learnAll now contacts
  | .failed contact => t.failed contact
  | .failedAddress address => t.failedAddress address
  | .removedStale expiry => (t.removeStale now expiry).2

theorem Reachable.change (reachable : Reachable own t) (now : Instant) (change : Change) :
    Reachable own (t.change now change) := by
  cases change with
  | added node => exact .add now node reachable
  | requested contact version => exact .requested now contact version reachable
  | answered contact version => exact .answered now contact version reachable
  | learned contacts => exact .learnAll now contacts reachable
  | failed contact => exact .failed contact reachable
  | failedAddress address => exact .failedAddress address reachable
  | removedStale expiry => exact .removeStale now expiry reachable

/-- The chosen contacts are those of the questionable nodes that are closest to a target. -/
structure Selected (t : Table) (now : Instant) (target : NodeId) (count : Nat)
    (chosen : List Contact) : Prop where
  known : ∀ contact ∈ chosen,
    ∃ node ∈ t.nodes, node.contact = contact ∧ node.status now = .questionable
  /-- Neither a good node nor a bad one is among them. -/
  questionable : ∀ node ∈ t.nodes, node.contact ∈ chosen → node.status now = .questionable
  closestFirst : chosen.Pairwise fun a b => farness target a < farness target b
  length : chosen.length = min count (t.countWith now .questionable)
  farther : ∀ node ∈ t.nodes, node.status now = .questionable → node.contact ∉ chosen →
    ∀ contact ∈ chosen, farness target contact < farness target node.contact

theorem mem_questionable {contact : Contact} (chosen : contact ∈ t.questionable now target count) :
    ∃ node ∈ t.nodes, node.contact = contact ∧ node.status now = .questionable := by
  have hAmong := List.mem_mergeSort.mp (List.mem_of_mem_take chosen)
  rcases List.mem_map.mp hAmong with ⟨node, kept, same⟩
  rcases List.mem_filter.mp kept with ⟨member, status⟩
  exact ⟨node, member, same, of_decide_eq_true status⟩

/-- The refresh finds the closest questionable nodes. -/
theorem Sorted.selected_questionable (sorted : Sorted own t) (now : Instant) (target : NodeId)
    (count : Nat) : Selected t now target count (t.questionable now target count) := by
  rcases @nearest_spec target count _ (sorted.nodup_filter fun n => n.status now = .questionable)
    with ⟨closestFirst, farther⟩
  refine ⟨fun _ => mem_questionable, fun node member chosen => ?_, closestFirst, ?_,
    fun node member status => ?_⟩
  · rcases mem_questionable chosen with ⟨other, known, same, status⟩
    have hSame : node = other :=
      eq_of_nodup_map sorted.nodup_ids member known (congrArg Contact.id same.symm)
    rw [hSame]
    exact status
  · rw [questionable, length_nearest, List.length_map, countWith, List.countP_eq_length_filter]
  · exact farther _ (List.mem_map_of_mem (List.mem_filter.mpr ⟨member, decide_eq_true status⟩))

end Table

namespace Refresh

/-- What can happen while a table is kept fresh. -/
inductive Event where
  | tick
  | passed (span : Duration)
  | changed (change : Table.Change)
deriving DecidableEq

/-- The clock, a table and its refresh. -/
structure Scene where
  now : Instant
  table : Table
  refresh : Refresh

namespace Scene

/-- An empty table, the refresh of which has not begun. -/
def start (own : NodeId) (born : Instant) : Scene :=
  ⟨born, { own }, .start⟩

/-- The identifier that a tick asks about now. -/
def target (s : Scene) : NodeId :=
  s.refresh.target s.table.own

/-- What a tick asks now, and whom. -/
def queries (s : Scene) : List (Contact × Query) :=
  (s.refresh.tick s.now s.table).1

/-- What an event makes of the scene. -/
def step (s : Scene) : Event → Scene
  | .tick => { s with refresh := (s.refresh.tick s.now s.table).2 }
  | .passed span => { s with now := s.now + span }
  | .changed change => { s with table := s.table.change s.now change }

def run (s : Scene) (events : List Event) : Scene :=
  events.foldl step s

/-- The identifiers that are asked about in the course of some events, one for each tick. -/
def targets (s : Scene) : List Event → List NodeId
  | [] => []
  | event :: events =>
    let later := (s.step event).targets events
    if event = .tick then s.target :: later else later

end Scene

variable {own : NodeId} {ticks : Nat} {s : Scene} {events : List Event}

/-! ## One event -/

/-- The turn is told by the number of ticks; the table is one of the node, however it has changed. -/
structure Counted (own : NodeId) (ticks : Nat) (s : Scene) : Prop where
  reachable : Table.Reachable own s.table
  turn : s.refresh.turn.val = ticks % 160

theorem Counted.start (own : NodeId) (born : Instant) : Counted own 0 (.start own born) where
  reachable := .new
  turn := rfl

theorem Counted.step (counted : Counted own ticks s) (event : Event) :
    Counted own (ticks + [event].count .tick) (s.step event) := by
  cases event with
  | tick =>
    refine ⟨counted.reachable, ?_⟩
    have hTurn := val_turn (s.refresh.tick s.now s.table).2
    change _ = (s.refresh.turn.val + 1) % 160 at hTurn
    rw [counted.turn, Nat.mod_add_mod] at hTurn
    exact hTurn
  | passed span => exact ⟨counted.reachable, counted.turn⟩
  | changed change => exact ⟨counted.reachable.change s.now change, counted.turn⟩

/-- The bit of the turn is one of the own identifier. -/
theorem Counted.flipBit?_eq (counted : Counted own ticks s) :
    own.flipBit? (ticks % 160) = some s.target := by
  rw [NodeId.flipBit?_eq_some_iff]
  refine ⟨Nat.mod_lt _ (by decide), ?_⟩
  rw [Scene.target, target, counted.reachable.sorted.same]
  exact congrArg own.flipBit (Fin.ext counted.turn.symm)

/-! ## Many events -/

theorem Counted.run (counted : Counted own ticks s) (events : List Event) :
    Counted own (ticks + events.count .tick) (s.run events) := by
  induction events generalizing ticks s with
  | nil => exact counted
  | cons event events ih =>
    have hLater := ih (counted.step event)
    rw [Nat.add_assoc, ← List.count_append] at hLater
    exact hLater

/-- The bits of the ticks to come, one after another. -/
theorem Counted.map_targets (counted : Counted own ticks s) (events : List Event) :
    (s.targets events).map some =
      (List.range' ticks (events.count .tick)).map fun k => own.flipBit? (k % 160) := by
  induction events generalizing ticks s with
  | nil => rfl
  | cons event events ih =>
    have hLater := ih (counted.step event)
    rw [Scene.targets]
    by_cases tick : event = .tick
    · rw [tick, List.count_singleton_self] at hLater
      rw [if_pos tick, tick, List.map_cons, hLater, List.count_cons_self, List.range'_succ,
        List.map_cons, counted.flipBit?_eq]
    · rw [List.count_cons_of_ne tick] at hLater ⊢
      rw [if_neg tick]
      exact hLater

/-- Of as many numbers in a row as there are remainders, each has another one. -/
theorem map_mod_range'_perm (first : Nat) :
    ((List.range' first 160).map (· % 160)).Perm (List.range 160) := by
  have hPeriod := Nat.multiset_Ico_map_mod first 160
  rw [Multiset.Ico, Nat.Ico_eq_range', Nat.add_sub_cancel_left] at hPeriod
  exact Multiset.coe_eq_coe.mp hPeriod

/-- After `k` ticks, whatever has happened to the table and to the clock, the next one turns over
bit `k % 160` of the own identifier; there is such a bit.  It asks for the nodes near what comes of
that, and it asks the four questionable nodes that are closest to it, closest first, or all if they
are fewer.  Any 160 ticks to come turn over each bit once, whatever else happens. -/
theorem revolves_of_run (own : NodeId) (born : Instant) (events : List Event) :
    let scene := (Scene.start own born).run events
    own.flipBit? (events.count .tick % 160) = some scene.target ∧
      (∃ chosen, Table.Selected scene.table scene.now scene.target 4 chosen ∧
        scene.queries = chosen.map fun contact => (contact, .findNode own scene.target none)) ∧
      ∀ later, later.count .tick = 160 →
        ((scene.targets later).map some).Perm ((List.range 160).map own.flipBit?) := by
  intro scene
  have hCounted : Counted own (events.count .tick) scene := by
    have hRun := (Counted.start own born).run events
    rw [Nat.zero_add] at hRun
    exact hRun
  have hSorted := hCounted.reachable.sorted
  refine ⟨hCounted.flipBit?_eq, ⟨_, hSorted.selected_questionable scene.now scene.target 4, ?_⟩,
    fun later round => ?_⟩
  · rw [← hSorted.same]
    rfl
  · rw [hCounted.map_targets, round]
    have hBits := (map_mod_range'_perm (events.count .tick)).map own.flipBit?
    rw [List.map_map] at hBits
    exact hBits

/-- The round begins at the second bit, and a node fails in the course of it. -/
theorem revolves_of_two_ticks :
    let contact : Contact := ⟨⟨1⟩, ⟨.v4 1, 1⟩⟩
    let scene := (Scene.start .zero 0).run [.changed (.learned [contact]), .tick, .passed 5]
    let later := .tick :: .changed (.failed contact) :: List.replicate 159 .tick
    later.count .tick = 160 ∧
      ((scene.targets later).map some).Perm ((List.range 160).map NodeId.zero.flipBit?) := by
  intro contact scene later
  have hRound : later.count .tick = 160 := by
    rw [List.count_cons_self, List.count_cons_of_ne (by decide), List.count_replicate_self]
  exact ⟨hRound, (revolves_of_run .zero 0 _).2.2 later hRound⟩

end Refresh
end Routing
end Kademlia
