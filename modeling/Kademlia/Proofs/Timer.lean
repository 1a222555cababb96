import Kademlia.Timer

namespace Kademlia
namespace Timer

/-!
Which time-outs are scheduled.  What is taken out by its place is what the index stands for, so that
the tasks alone tell what becomes of them: taking out the first task, or the time-out of a query,
leaves no time-out of that query behind.
-/

variable {t rest : Timer} {now deadline wake : Instant} {task : Task} {id other : TransactionId}
  {s : Scheduled}

theorem hasTimeout_iff : t.hasTimeout id = true ↔ ∃ s ∈ t.tasks, s.task = .queryTimeout id := by
  rw [hasTimeout, List.any_eq_true]
  constructor
  · rintro ⟨s, member, same⟩
    exact ⟨s, member, of_decide_eq_true same⟩
  · rintro ⟨s, member, same⟩
    exact ⟨s, member, decide_eq_true same⟩

/-- No two tasks are time-outs of the same query. -/
def Distinct (t : Timer) : Prop :=
  t.tasks.Pairwise fun a b => ∀ id, a.task = .queryTimeout id → b.task ≠ .queryTimeout id

/-- The index has one place for a query, so there is only one time-out. -/
theorem distinct (t : Timer) : t.Distinct := by
  refine t.consistent.sorted.imp_of_mem ?_
  intro a b first second before id same again
  have hFirst := t.consistent.timeout?_of_mem first same
  have hSecond := t.consistent.timeout?_of_mem second again
  exact before.place_ne (Option.some.inj (hFirst.symm.trans hSecond))

/-! ## Taking out -/

theorem tasks_removeTimeout (t : Timer) (id : TransactionId) :
    (t.removeTimeout id).tasks = t.tasks.filter (·.task ≠ .queryTimeout id) :=
  t.consistent.tasks_removeTimeout id

theorem mem_removeTimeout :
    s ∈ (t.removeTimeout id).tasks ↔ s ∈ t.tasks ∧ s.task ≠ .queryTimeout id := by
  rw [tasks_removeTimeout, List.mem_filter, decide_eq_true_iff]

/-- A time-out is found by the index if and only if one is scheduled. -/
theorem fst_cancel (t : Timer) (id : TransactionId) : (t.cancel id).1 = t.hasTimeout id := by
  unfold cancel Schedule.cancel
  dsimp only
  rw [Bool.eq_iff_iff, hasTimeout_iff, Option.any_eq_true]
  constructor
  · rintro ⟨place, found, -⟩
    exact ⟨_, (t.consistent.indexed id place).mp found, rfl⟩
  · rintro ⟨s, member, same⟩
    refine ⟨s.place, t.consistent.timeout?_of_mem member same, ?_⟩
    exact List.any_eq_true.mpr ⟨s, member, decide_eq_true rfl⟩

theorem hasTimeout_removeTimeout :
    (t.removeTimeout id).hasTimeout other = true ↔ other ≠ id ∧ t.hasTimeout other = true := by
  rw [hasTimeout_iff, hasTimeout_iff]
  constructor
  · rintro ⟨s, member, same⟩
    rcases mem_removeTimeout.mp member with ⟨scheduled, another⟩
    refine ⟨?_, s, scheduled, same⟩
    rintro rfl
    exact another same
  · rintro ⟨different, s, member, same⟩
    refine ⟨s, mem_removeTimeout.mpr ⟨member, ?_⟩, same⟩
    intro this
    rw [same] at this
    exact different (Task.queryTimeout.inj this)

/-! ## Handing out -/

/-- However the timer slept before, it sleeps for its first task. -/
theorem wakeAt_eq (sleep : Option Instant) (deadline : Instant) :
    wakeAt sleep deadline = deadline := by
  unfold wakeAt
  dsimp only
  by_cases same : sleep.getD deadline = deadline
  · rw [if_neg (not_not_intro same), same]
  · exact if_pos same

/-- What comes of asking a timer, and what is left of it. -/
inductive Polled (t : Timer) (now : Instant) : Poll × Timer → Prop
  | ready {s : Scheduled} {rest : Timer} (tasks : t.tasks = s :: rest.tasks)
    (count : rest.count = t.count) (due : s.deadline ≤ now) : Polled t now (.ready s.task, rest)
  | pending {s : Scheduled} {same : Timer} (tasks : same.tasks = t.tasks)
    (count : same.count = t.count) (first : t.tasks.head? = some s) (early : now < s.deadline) :
    Polled t now (.pending s.deadline, same)
  | ended (empty : t.tasks = []) : Polled t now (.ended, t)

theorem polled_poll (t : Timer) (now : Instant) : Polled t now (t.poll now) := by
  unfold poll
  cases tasks : t.tasks with
  | nil => exact .ended tasks
  | cons s later =>
    dsimp only
    rw [wakeAt_eq]
    have hRest : (dropFirst { t with sleep := some s.deadline }).tasks = later := by
      unfold dropFirst Schedule.dropFirst
      dsimp only
      rw [tasks, List.tail_cons]
    by_cases early : now < s.deadline
    · rw [if_pos early]
      exact .pending rfl rfl (tasks ▸ rfl) early
    · rw [if_neg early]
      exact .ready (tasks.trans (hRest ▸ rfl)) rfl (Nat.le_of_not_lt early)

theorem popDue?_eq_some (popped : t.popDue? now = some (task, rest)) :
    ∃ s, t.tasks = s :: rest.tasks ∧ s.deadline ≤ now ∧ s.task = task := by
  unfold popDue? at popped
  have hPolled := polled_poll t now
  cases answer : t.poll now with
  | mk poll left =>
    rw [answer] at hPolled popped
    cases hPolled with
    | @ready s _ tasks _ due =>
      rcases Prod.mk.inj (Option.some.inj popped) with ⟨rfl, rfl⟩
      exact ⟨s, tasks, due, rfl⟩
    | pending => cases popped
    | ended => cases popped

theorem hasTimeout_of_popDue? (popped : t.popDue? now = some (task, rest)) :
    rest.hasTimeout other = true ↔ task ≠ .queryTimeout other ∧ t.hasTimeout other = true := by
  rcases popDue?_eq_some popped with ⟨s, tasks, -, same⟩
  have hDistinct := t.distinct
  unfold Distinct at hDistinct
  rw [tasks] at hDistinct
  rw [hasTimeout_iff, hasTimeout_iff, tasks]
  constructor
  · rintro ⟨later, member, timeout⟩
    refine ⟨?_, later, List.mem_cons_of_mem _ member, timeout⟩
    intro first
    exact (List.pairwise_cons.mp hDistinct).1 later member other (same.trans first) timeout
  · rintro ⟨another, later, member, timeout⟩
    rcases List.mem_cons.mp member with rfl | behind
    · exact absurd (same.symm.trans timeout) another
    · exact ⟨later, behind, timeout⟩

/-! ## Scheduling -/

/-- A task is put among the others, of which a time-out takes the place of the one before it. -/
theorem mem_scheduleAt_iff : s ∈ (t.scheduleAt deadline task).tasks ↔
    s = ⟨deadline, t.count, task⟩ ∨
      s ∈ t.tasks ∧ ¬ ∃ id, task = .queryTimeout id ∧ s.task = .queryTimeout id := by
  cases task with
  | queryTimeout id =>
    refine (t.consistent.removeTimeout id).mem_add.trans (or_congr_right ?_)
    refine mem_removeTimeout.trans (and_congr_right fun _ => not_congr ?_)
    constructor
    · exact fun here => ⟨id, rfl, here⟩
    · rintro ⟨found, same, here⟩
      rw [Task.queryTimeout.inj same]
      exact here
  | tableRefresh => exact t.consistent.mem_add.trans (or_congr_right (by simp))
  | maintenance => exact t.consistent.mem_add.trans (or_congr_right (by simp))
  | bootstrapRetry => exact t.consistent.mem_add.trans (or_congr_right (by simp))

theorem mem_scheduleAt (member : s ∈ (t.scheduleAt deadline task).tasks) :
    s = ⟨deadline, t.count, task⟩ ∨ s ∈ t.tasks :=
  (mem_scheduleAt_iff.mp member).imp_right And.left

theorem hasTimeout_scheduleAt :
    (t.scheduleAt deadline (.queryTimeout id)).hasTimeout other = true ↔
      other = id ∨ t.hasTimeout other = true := by
  rw [hasTimeout_iff, hasTimeout_iff]
  constructor
  · rintro ⟨s, member, same⟩
    rcases mem_scheduleAt member with rfl | old
    · exact .inl (Task.queryTimeout.inj same).symm
    · exact .inr ⟨s, old, same⟩
  · intro known
    by_cases here : other = id
    · exact ⟨_, mem_scheduleAt_iff.mpr (.inl rfl), congrArg _ here.symm⟩
    · rcases known.resolve_left here with ⟨s, old, same⟩
      refine ⟨s, mem_scheduleAt_iff.mpr (.inr ⟨old, ?_⟩), same⟩
      rintro ⟨found, new, replaced⟩
      rw [← Task.queryTimeout.inj new, same] at replaced
      exact here (Task.queryTimeout.inj replaced)

theorem hasTimeout_scheduleAt_other (another : ∀ id, task ≠ .queryTimeout id) :
    (t.scheduleAt deadline task).hasTimeout other = t.hasTimeout other := by
  rw [Bool.eq_iff_iff, hasTimeout_iff, hasTimeout_iff]
  constructor
  · rintro ⟨s, member, same⟩
    rcases mem_scheduleAt member with rfl | old
    · exact absurd same (another other)
    · exact ⟨s, old, same⟩
  · rintro ⟨s, member, same⟩
    exact ⟨s, mem_scheduleAt_iff.mpr (.inr ⟨member, fun ⟨id, new, _⟩ => another id new⟩), same⟩

/-! ## How often a task is scheduled -/

/-- How many times a task is scheduled. -/
def times (t : Timer) (task : Task) : Nat :=
  t.tasks.countP (·.task = task)

theorem times_removeTimeout (another : task ≠ .queryTimeout id) :
    (t.removeTimeout id).times task = t.times task := by
  unfold times
  rw [tasks_removeTimeout, List.countP_filter]
  apply List.countP_congr
  intro s _
  rw [Bool.and_eq_true, decide_eq_true_iff, decide_eq_true_iff]
  refine and_iff_left_of_imp fun same => ?_
  rw [same]
  exact another

theorem times_scheduleAt {scheduled : Task} (another : ∀ id, task ≠ .queryTimeout id) :
    (t.scheduleAt deadline scheduled).times task =
      t.times task + if scheduled = task then 1 else 0 := by
  have hAdd : ∀ s : Schedule, s.Consistent →
      (s.add deadline scheduled).tasks.countP (·.task = task) =
        s.tasks.countP (·.task = task) + if scheduled = task then 1 else 0 := by
    intro s consistent
    unfold Schedule.add
    rw [(Schedule.insert_perm consistent.free).countP_eq, List.countP_cons]
    simp only [decide_eq_true_iff]
  cases scheduled with
  | queryTimeout id =>
    have hRemoved := times_removeTimeout (t := t) (another id)
    exact (hAdd _ (t.consistent.removeTimeout id)).trans (congrArg (· + _) hRemoved)
  | tableRefresh => exact hAdd _ t.consistent
  | maintenance => exact hAdd _ t.consistent
  | bootstrapRetry => exact hAdd _ t.consistent

theorem times_of_popDue? {popped : Task} (taken : t.popDue? now = some (popped, rest)) :
    t.times task = rest.times task + if popped = task then 1 else 0 := by
  rcases popDue?_eq_some taken with ⟨s, tasks, -, rfl⟩
  unfold times
  rw [tasks, List.countP_cons]
  simp only [decide_eq_true_iff]

end Timer
end Kademlia
