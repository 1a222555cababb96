import Kademlia.Sequence
import Kademlia.Transactions

namespace Kademlia

/-!
The tasks that are scheduled.  They are kept in the order in which they come due, and tasks with the
same deadline in the order in which they were scheduled.  An index tells where the time-out of a
query stands among them, so that it can be taken out when the query is answered.  The index and the
tasks have to agree: a place that is out of date would cost another task its place.
-/

/-- What is to be done. -/
inductive Task where
  /-- The query should have been answered by now. -/
  | queryTimeout (id : TransactionId)
  /-- It is the turn of the next bucket of the routing table. -/
  | tableRefresh
  /-- Old nodes, peers and queries are to be removed. -/
  | maintenance
  /-- The next attempt to join the network is due. -/
  | bootstrapRetry
deriving DecidableEq, Repr

/-- Where a task stands among the others: its deadline, and how many tasks were scheduled before
it. -/
structure Place where
  deadline : Instant
  order : Nat
deriving DecidableEq, Repr

/-- A task, when it is due, and how many were scheduled before it. -/
structure Scheduled where
  deadline : Instant
  order : Nat
  task : Task
deriving DecidableEq, Repr

namespace Scheduled

def place (s : Scheduled) : Place :=
  ⟨s.deadline, s.order⟩

/-- A task comes before another by its deadline, or by its order if they are due together. -/
def Before (a b : Scheduled) : Prop :=
  a.deadline < b.deadline ∨ a.deadline = b.deadline ∧ a.order < b.order

instance : DecidableRel Before :=
  fun a b => inferInstanceAs (Decidable (a.deadline < b.deadline ∨ _ ∧ _))

variable {a b : Scheduled}

theorem Before.place_ne (before : Before a b) : a.place ≠ b.place := by
  intro same
  rcases Place.mk.inj same with ⟨deadlines, orders⟩
  rcases before with sooner | ⟨-, earlier⟩
  · exact Nat.ne_of_lt sooner deadlines
  · exact Nat.ne_of_lt earlier orders

theorem Before.ne (before : Before a b) : a ≠ b :=
  fun same => before.place_ne (congrArg place same)

theorem Before.deadline_le (before : Before a b) : a.deadline ≤ b.deadline := by
  rcases before with sooner | ⟨together, -⟩
  · exact Nat.le_of_lt sooner
  · exact Nat.le_of_eq together

theorem Before.trans {c : Scheduled} (first : Before a b) (second : Before b c) : Before a c := by
  rcases first with sooner | ⟨together, earlier⟩
  · exact .inl (Nat.lt_of_lt_of_le sooner second.deadline_le)
  · rcases second with later | ⟨also, before⟩
    · exact .inl (Nat.lt_of_le_of_lt (Nat.le_of_eq together) later)
    · exact .inr ⟨together.trans also, Nat.lt_trans earlier before⟩

/-- Of two tasks at different places, one comes before the other. -/
theorem before_of_not_before (behind : ¬ Before a b) (apart : a.place ≠ b.place) :
    Before b a := by
  rcases Nat.lt_trichotomy a.deadline b.deadline with sooner | together | later
  · exact absurd (.inl sooner) behind
  · rcases Nat.lt_trichotomy a.order b.order with earlier | same | after
    · exact absurd (.inr ⟨together, earlier⟩) behind
    · exact absurd (Place.mk.injEq .. ▸ ⟨together, same⟩) apart
    · exact .inr ⟨together.symm, after⟩
  · exact .inl later

end Scheduled

/-- The scheduled tasks, and where the time-outs stand among them. -/
structure Schedule where
  /-- The tasks by their places. -/
  tasks : List Scheduled := []
  /-- The place of the time-out of each query that has one. -/
  timeouts : List (TransactionId × Place) := []
  /-- How many tasks were ever scheduled.  This many never are as would not fit into 64 bits. -/
  count : Nat := 0
deriving Repr

namespace Schedule

/-- Puts a task in its place, instead of a task that has this place. -/
def insert (new : Scheduled) : List Scheduled → List Scheduled
  | [] => [new]
  | s :: rest =>
    if s.Before new then s :: insert new rest
    else if s.place = new.place then new :: rest
    else new :: s :: rest

/-- The place of the time-out of a query. -/
def timeout? (s : Schedule) (id : TransactionId) : Option Place :=
  s.timeouts.lookup id

/-- Takes out the task at a place. -/
def removeAt (tasks : List Scheduled) (place : Place) : List Scheduled :=
  tasks.filter (·.place ≠ place)

/-- Takes out the time-out of a query. -/
def removeTimeout (s : Schedule) (id : TransactionId) : Schedule where
  tasks :=
    match s.timeout? id with
    | some place => removeAt s.tasks place
    | none => s.tasks
  timeouts := s.timeouts.filter (·.1 ≠ id)
  count := s.count

/-- Adds a task behind those that are not due after it. -/
def add (s : Schedule) (deadline : Instant) (task : Task) : Schedule where
  tasks := insert ⟨deadline, s.count, task⟩ s.tasks
  timeouts :=
    match task with
    | .queryTimeout id => (id, ⟨deadline, s.count⟩) :: s.timeouts
    | _ => s.timeouts
  count := s.count + 1

/-- Schedules a task.  A time-out takes the place of the one that its query number had. -/
def scheduleAt (s : Schedule) (deadline : Instant) (task : Task) : Schedule :=
  match task with
  | .queryTimeout id => (s.removeTimeout id).add deadline task
  | _ => s.add deadline task

/-- Takes out the time-out of a query that was answered.  Also tells whether there was one. -/
def cancel (s : Schedule) (id : TransactionId) : Bool × Schedule :=
  ((s.timeout? id).any fun place => s.tasks.any (·.place = place), s.removeTimeout id)

/-- The schedule without its first task. -/
def dropFirst (s : Schedule) : Schedule where
  tasks := s.tasks.tail
  timeouts :=
    match s.tasks with
    | ⟨_, _, .queryTimeout id⟩ :: _ => s.timeouts.filter (·.1 ≠ id)
    | _ => s.timeouts
  count := s.count

/-- The tasks stand in their order, and the index tells of each time-out its place and of nothing
else. -/
structure Consistent (s : Schedule) : Prop where
  sorted : s.tasks.Pairwise Scheduled.Before
  older : ∀ task ∈ s.tasks, task.order < s.count
  indexed : ∀ id place, s.timeout? id = some place ↔
    ⟨place.deadline, place.order, .queryTimeout id⟩ ∈ s.tasks

variable {s : Schedule} {tasks : List Scheduled} {new a b : Scheduled} {id : TransactionId}
  {place : Place} {deadline : Instant} {task : Task}

/-! ## Putting in -/

theorem insert_perm (free : ∀ s ∈ tasks, s.place ≠ new.place) :
    (insert new tasks).Perm (new :: tasks) := by
  induction tasks with
  | nil => exact .refl _
  | cons s rest ih =>
    rw [insert]
    by_cases before : s.Before new
    · rw [if_pos before]
      have hRest := ih fun other member => free other (List.mem_cons_of_mem _ member)
      exact (hRest.cons s).trans (.swap new s rest)
    · rw [if_neg before, if_neg (free s List.mem_cons_self)]

theorem mem_insert (free : ∀ s ∈ tasks, s.place ≠ new.place) :
    a ∈ insert new tasks ↔ a = new ∨ a ∈ tasks :=
  (insert_perm free).mem_iff.trans List.mem_cons

theorem sorted_insert (sorted : tasks.Pairwise Scheduled.Before)
    (free : ∀ s ∈ tasks, s.place ≠ new.place) :
    (insert new tasks).Pairwise Scheduled.Before := by
  induction tasks with
  | nil => exact List.pairwise_singleton _ _
  | cons s rest ih =>
    rcases List.pairwise_cons.mp sorted with ⟨first, others⟩
    have hFree : ∀ other ∈ rest, other.place ≠ new.place :=
      fun other member => free other (List.mem_cons_of_mem _ member)
    rw [insert]
    by_cases before : s.Before new
    · rw [if_pos before]
      refine List.pairwise_cons.mpr ⟨?_, ih others hFree⟩
      intro other member
      rcases (mem_insert hFree).mp member with rfl | old
      · exact before
      · exact first other old
    · have hApart := free s List.mem_cons_self
      rw [if_neg before, if_neg hApart]
      have hBehind := Scheduled.before_of_not_before before hApart
      refine List.pairwise_cons.mpr ⟨?_, sorted⟩
      intro other member
      rcases List.mem_cons.mp member with rfl | old
      · exact hBehind
      · exact hBehind.trans (first other old)

namespace Consistent

theorem empty : Consistent {} where
  sorted := List.Pairwise.nil
  older := fun _ member => absurd member List.not_mem_nil
  indexed := fun _ _ => iff_of_false nofun List.not_mem_nil

/-- No two tasks stand at one place. -/
theorem eq_of_place (consistent : s.Consistent) (first : a ∈ s.tasks) (second : b ∈ s.tasks)
    (same : a.place = b.place) : a = b := by
  have hSorted := consistent.sorted
  generalize s.tasks = tasks at hSorted first second
  induction tasks with
  | nil => cases first
  | cons s rest ih =>
    rcases List.pairwise_cons.mp hSorted with ⟨before, later⟩
    rcases List.mem_cons.mp first with rfl | first_later
    · rcases List.mem_cons.mp second with rfl | second_later
      · rfl
      · exact absurd same (before b second_later).place_ne
    · rcases List.mem_cons.mp second with rfl | second_later
      · exact absurd same.symm (before a first_later).place_ne
      · exact ih later first_later second_later

theorem timeout?_of_mem (consistent : s.Consistent) (member : a ∈ s.tasks)
    (same : a.task = .queryTimeout id) : s.timeout? id = some a.place := by
  apply (consistent.indexed id a.place).mpr
  rw [← same]
  exact member

theorem timeout?_eq_none_iff (consistent : s.Consistent) :
    s.timeout? id = none ↔ ∀ a ∈ s.tasks, a.task ≠ .queryTimeout id := by
  constructor
  · intro unknown a member same
    rw [consistent.timeout?_of_mem member same] at unknown
    cases unknown
  · intro none_such
    cases found : s.timeout? id with
    | none => rfl
    | some place => exact absurd rfl (none_such _ ((consistent.indexed id place).mp found))

/-! ## Taking out -/

/-- Nothing but the time-out of the query is taken out by its place. -/
theorem tasks_removeTimeout (consistent : s.Consistent) (id : TransactionId) :
    (s.removeTimeout id).tasks = s.tasks.filter (·.task ≠ .queryTimeout id) := by
  unfold removeTimeout
  dsimp only
  cases found : s.timeout? id with
  | none =>
    have hNone := consistent.timeout?_eq_none_iff.mp found
    exact (List.filter_eq_self.mpr fun a member => decide_eq_true (hNone a member)).symm
  | some place =>
    have hEntry := (consistent.indexed id place).mp found
    apply List.filter_congr
    intro a member
    rw [decide_eq_decide]
    refine not_congr ⟨fun same => ?_, fun same => ?_⟩
    · rw [consistent.eq_of_place member hEntry same]
    · have hFound := consistent.timeout?_of_mem member same
      exact Option.some.inj (hFound.symm.trans found)

theorem removeTimeout (consistent : s.Consistent) (id : TransactionId) :
    (s.removeTimeout id).Consistent where
  sorted := by
    rw [consistent.tasks_removeTimeout]
    exact consistent.sorted.filter _
  older := by
    intro a member
    rw [consistent.tasks_removeTimeout] at member
    exact consistent.older a (List.mem_filter.mp member).1
  indexed := by
    intro other place
    rw [consistent.tasks_removeTimeout, List.mem_filter, ← consistent.indexed, decide_eq_true_iff,
      timeout?, Schedule.removeTimeout, lookup_filter_ne]
    by_cases same : other = id
    · rw [if_pos same, same]
      exact iff_of_false nofun fun ⟨_, another⟩ => another rfl
    · rw [if_neg same]
      exact (and_iff_left fun taken => same (Task.queryTimeout.inj taken)).symm

/-! ## Scheduling -/

theorem free (consistent : s.Consistent) :
    ∀ a ∈ s.tasks, a.place ≠ (⟨deadline, s.count, task⟩ : Scheduled).place := by
  intro a member same
  exact Nat.ne_of_lt (consistent.older a member) (congrArg Place.order same)

theorem mem_add (consistent : s.Consistent) :
    a ∈ (s.add deadline task).tasks ↔ a = ⟨deadline, s.count, task⟩ ∨ a ∈ s.tasks :=
  mem_insert consistent.free

theorem timeout?_add (s : Schedule) (deadline : Instant) (task : Task) (id : TransactionId) :
    (s.add deadline task).timeout? id =
      if task = .queryTimeout id then some ⟨deadline, s.count⟩ else s.timeout? id := by
  cases task with
  | queryTimeout other =>
    by_cases same : other = id
    · rw [if_pos (congrArg _ same), same]
      exact List.lookup_cons_self
    · rw [if_neg fun taken => same (Task.queryTimeout.inj taken)]
      have hDifferent : (id == other) = false := beq_eq_false_iff_ne.mpr (Ne.symm same)
      unfold timeout? Schedule.add
      rw [List.lookup_cons, hDifferent]
  | tableRefresh => exact (if_neg Task.noConfusion).symm
  | maintenance => exact (if_neg Task.noConfusion).symm
  | bootstrapRetry => exact (if_neg Task.noConfusion).symm

/-- A time-out is added only after the one before it has been taken out. -/
theorem add (consistent : s.Consistent)
    (unknown : ∀ id, task = .queryTimeout id → s.timeout? id = none) :
    (s.add deadline task).Consistent where
  sorted := sorted_insert consistent.sorted consistent.free
  older := by
    intro a member
    rcases consistent.mem_add.mp member with rfl | old
    · exact Nat.lt_succ_self _
    · exact Nat.lt_succ_of_lt (consistent.older a old)
  indexed := by
    intro id place
    rw [timeout?_add, consistent.mem_add, ← consistent.indexed, Scheduled.mk.injEq]
    by_cases same : task = .queryTimeout id
    · rw [if_pos same, unknown id same, Option.some.injEq]
      constructor
      · rintro rfl
        exact .inl ⟨rfl, rfl, same.symm⟩
      · rintro (⟨deadlines, orders, -⟩ | found)
        · exact Place.mk.injEq .. ▸ ⟨deadlines.symm, orders.symm⟩
        · cases found
    · rw [if_neg same]
      exact (or_iff_right fun ⟨_, _, taken⟩ => same taken.symm).symm

theorem timeout?_removeTimeout (s : Schedule) (id : TransactionId) :
    (s.removeTimeout id).timeout? id = none := by
  rw [timeout?, Schedule.removeTimeout, lookup_filter_ne, if_pos rfl]

theorem scheduleAt (consistent : s.Consistent) : (s.scheduleAt deadline task).Consistent := by
  cases task with
  | queryTimeout id =>
    refine (consistent.removeTimeout id).add fun other same => ?_
    rw [← Task.queryTimeout.inj same]
    exact timeout?_removeTimeout s id
  | tableRefresh => exact consistent.add nofun
  | maintenance => exact consistent.add nofun
  | bootstrapRetry => exact consistent.add nofun

/-! ## Handing out -/

theorem timeout?_dropFirst {first : Scheduled} {rest : List Scheduled}
    (tasks : s.tasks = first :: rest) (id : TransactionId) :
    s.dropFirst.timeout? id =
      if first.task = .queryTimeout id then none else s.timeout? id := by
  rcases first with ⟨deadline, order, task⟩
  unfold timeout? Schedule.dropFirst
  rw [tasks]
  cases task with
  | queryTimeout other =>
    simp only [Task.queryTimeout.injEq, @eq_comm _ other id]
    exact lookup_filter_ne
  | tableRefresh => exact (if_neg Task.noConfusion).symm
  | maintenance => exact (if_neg Task.noConfusion).symm
  | bootstrapRetry => exact (if_neg Task.noConfusion).symm

/-- With the first task goes its entry in the index, and no other. -/
theorem dropFirst (consistent : s.Consistent) : s.dropFirst.Consistent where
  sorted := consistent.sorted.sublist (List.tail_sublist _)
  older := fun a member => consistent.older a (List.mem_of_mem_tail member)
  indexed := by
    intro id place
    cases tasks : s.tasks with
    | nil =>
      have hNone : s.timeout? id = none := by
        rw [consistent.timeout?_eq_none_iff, tasks]
        exact fun a member => absurd member List.not_mem_nil
      have hSame : s.dropFirst.timeout? id = s.timeout? id := by
        unfold timeout? Schedule.dropFirst
        rw [tasks]
      rw [hSame, hNone, Schedule.dropFirst, tasks]
      exact iff_of_false nofun List.not_mem_nil
    | cons first rest =>
      have hSorted := consistent.sorted
      have hFound := consistent.indexed id place
      rw [tasks] at hSorted hFound
      have hApart := (List.pairwise_cons.mp hSorted).1
      rw [timeout?_dropFirst tasks, Schedule.dropFirst, tasks, List.tail_cons]
      by_cases same : first.task = .queryTimeout id
      · rw [if_pos same]
        refine iff_of_false nofun fun behind => ?_
        have hFirst := consistent.timeout?_of_mem (tasks ▸ List.mem_cons_self) same
        have hLater := (consistent.indexed id place).mpr (tasks ▸ List.mem_cons_of_mem _ behind)
        exact (hApart _ behind).place_ne (Option.some.inj (hFirst.symm.trans hLater))
      · rw [if_neg same, hFound, List.mem_cons]
        exact or_iff_right fun first_one => same (first_one ▸ rfl)

end Consistent
end Schedule
end Kademlia
