import Kademlia.Proofs.History
import Kademlia.Proofs.Timer

namespace Kademlia
namespace Timer

/-!
# What a timer delivers

A timer is called in any order to schedule, to cancel and to hand out what is due, by a clock that
the caller puts forward.  What waits in it can be told from the history of these calls alone: a task
waits from the time it was scheduled until it is handed out, and a time-out no longer than until it
is cancelled or its query number is scheduled again.  What is handed out is always the first of the
waiting tasks, and nothing is handed out early or withheld once it is due.  The index of the
time-outs, by which they are cancelled and replaced, tells of each one that waits where it stands,
and of no other.

Two tasks that do the same are told apart by their order.  The entry that a task was handed out from
is recorded beside the task, as the caller does not see it.
-/

/-- What a timer can be called for.  To wait is to poll again and again until something is due, or
until a limit is reached. -/
inductive Call where
  | scheduleIn (delay : Duration) (task : Task)
  | scheduleAt (deadline : Instant) (task : Task)
  | cancel (id : TransactionId)
  | advance (time : Duration)
  | poll
  | wait
  | waitWithin (limit : Duration)

/-- What has come of a call. -/
inductive Event where
  | scheduled (entry : Scheduled)
  | cancelled (id : TransactionId) (found : Bool)
  /-- A task was handed out at a time, from an entry. -/
  | yielded (entry : Scheduled) (task : Task) (now : Instant)
  /-- Nothing was handed out, up to a time. -/
  | idle (now : Instant)
deriving DecidableEq

/-- Records that a task was handed out from the first entry. -/
def handOut (t : Timer) (task : Task) (now : Instant) : Option Event :=
  t.tasks.head?.map fun entry => .yielded entry task now

/-- What the timer was asked for has come, or has not, at a time. -/
def answered (t : Timer) (now : Instant) : Poll × Timer → Option Event × Instant × Timer
  | (.ready task, rest) => (t.handOut task now, now, rest)
  | (.pending _, t) => (some (.idle now), now, t)
  | (.ended, t) => (some (.idle now), now, t)

/-- Ends a wait, which takes time. -/
def awaken (t : Timer) (now : Instant) : Wait → Option Event × Instant × Timer
  | .task task later rest => (t.handOut task later, later, rest)
  | .nothing => (some (.idle now), now, t)
  | .elapsed later t => (some (.idle later), later, t)

/-- One call, with what has come of it and the time after it. -/
def call (now : Instant) (t : Timer) : Call → Option Event × Instant × Timer
  | .scheduleIn delay task =>
    (some (.scheduled ⟨now + delay, t.count, task⟩), now, t.scheduleIn now delay task)
  | .scheduleAt deadline task =>
    (some (.scheduled ⟨deadline, t.count, task⟩), now, t.scheduleAt deadline task)
  | .cancel id => (some (.cancelled id (t.cancel id).1), now, (t.cancel id).2)
  | .advance time => (none, now + time, t)
  | .poll => t.answered now (t.poll now)
  | .wait => t.awaken now (t.wait now)
  | .waitWithin limit => t.awaken now (t.waitWithin now limit)

/-- One more call after a history. -/
def record (past : List Event × Instant × Timer) (c : Call) : List Event × Instant × Timer :=
  (past.1 ++ (past.2.2.call past.2.1 c).1.toList, (past.2.2.call past.2.1 c).2)

/-- The history of some calls of a new timer, and what becomes of the clock and the timer. -/
def run (now : Instant) (calls : List Call) : List Event × Instant × Timer :=
  calls.foldl record ([], now, {})

/-! ## What waits by a history -/

/-- The entry that was scheduled, if one was. -/
def Event.entry? : Event → Option Scheduled
  | .scheduled entry => some entry
  | _ => none

/-- The entry that a task was handed out from, if one was. -/
def Event.yielded? : Event → Option Scheduled
  | .yielded entry _ _ => some entry
  | _ => none

/-- Whether an event is the end of a task that waits. -/
def Event.Ends (s : Scheduled) : Event → Prop
  | .scheduled entry => ∃ id, entry.task = .queryTimeout id ∧ s.task = .queryTimeout id
  | .cancelled id _ => s.task = .queryTimeout id
  | .yielded entry _ _ => entry = s
  | .idle _ => False

/-- The task was scheduled, and since then it was neither handed out nor cancelled nor replaced. -/
def Waits (history : List Event) (s : Scheduled) : Prop :=
  ∃ place, Lasts history place (.scheduled s) (Event.Ends s)

/-- What an event has to be after those before it. -/
def Fits (history : List Event) : Event → Prop
  | .scheduled entry => entry.order = (history.filterMap Event.entry?).length
  | .cancelled id found => found = true ↔ ∃ s, Waits history s ∧ s.task = .queryTimeout id
  | .yielded entry task now =>
    Waits history entry ∧ entry.task = task ∧ entry.deadline ≤ now ∧
      ∀ other, Waits history other → other ≠ entry → entry.Before other
  | .idle now => ∀ s, Waits history s → now < s.deadline

variable {t next rest : Timer} {now later deadline : Instant} {task : Task} {id : TransactionId}
  {history : List Event} {event : Event} {s new : Scheduled} {tasks : List Scheduled}

theorem waits_append :
    Waits (history ++ [event]) s ↔ event = .scheduled s ∨ Waits history s ∧ ¬ event.Ends s := by
  unfold Waits
  constructor
  · rintro ⟨place, lasting⟩
    rcases lasts_append.mp lasting with ⟨-, same⟩ | ⟨before, goes_on⟩
    · exact .inl same
    · exact .inr ⟨⟨place, before⟩, goes_on⟩
  · rintro (same | ⟨⟨place, before⟩, goes_on⟩)
    · exact ⟨history.length, lasts_append.mpr (.inl ⟨rfl, same⟩)⟩
    · exact ⟨place, lasts_append.mpr (.inr ⟨before, goes_on⟩)⟩

/-! ## What is taken out -/

theorem count_scheduleAt : (t.scheduleAt deadline task).count = t.count + 1 := by
  cases task <;> rfl

/-- An entry stands first in a timer, and what is left without it. -/
structure Taken (s : Scheduled) (t rest : Timer) : Prop where
  tasks : t.tasks = s :: rest.tasks
  count : rest.count = t.count

/-- A timer that was asked in vain has the same tasks. -/
structure Same (t next : Timer) : Prop where
  tasks : next.tasks = t.tasks
  count : next.count = t.count

/-- How a wait can end. -/
inductive Waited (t : Timer) : Wait → Prop
  | task {s : Scheduled} {rest : Timer} {later : Instant} (taken : Taken s t rest)
    (due : s.deadline ≤ later) : Waited t (.task s.task later rest)
  | nothing (empty : t.tasks = []) : Waited t .nothing
  | elapsed {next : Timer} {later : Instant} (same : Same t next)
    (early : ∀ s, t.tasks.head? = some s → later < s.deadline) : Waited t (.elapsed later next)

/-- A wait ends as the timer is asked last, whatever it was asked before in vain. -/
theorem waited_endWait {next : Timer} {later : Instant} {answer : Poll × Timer}
    (same : Same t next) (polled : Polled next later answer) : Waited t (endWait later answer) := by
  cases polled with
  | ready tasks count due =>
    exact .task ⟨same.tasks.symm.trans tasks, count.trans same.count⟩ due
  | @pending s _ tasks count first early =>
    refine .elapsed ⟨tasks.trans same.tasks, count.trans same.count⟩ fun other head => ?_
    rw [← same.tasks, first] at head
    rw [← Option.some.inj head]
    exact early
  | ended empty => exact .nothing (same.tasks.symm.trans empty)

theorem waited_wait (t : Timer) (now : Instant) : Waited t (t.wait now) := by
  have hPolled := polled_poll t now
  unfold wait
  generalize t.poll now = answer at hPolled
  cases hPolled with
  | ready tasks count due => exact .task ⟨tasks, count⟩ due
  | pending tasks count => exact waited_endWait ⟨tasks, count⟩ (polled_poll _ _)
  | ended empty => exact .nothing empty

theorem waited_waitWithin (t : Timer) (now : Instant) (limit : Duration) :
    Waited t (t.waitWithin now limit) := by
  have hPolled := polled_poll t now
  unfold waitWithin
  generalize t.poll now = answer at hPolled
  cases hPolled with
  | ready tasks count due => exact .task ⟨tasks, count⟩ due
  | pending tasks count => exact waited_endWait ⟨tasks, count⟩ (polled_poll _ _)
  | ended empty => exact .nothing empty

/-! ## A timer and its history -/

/-- The entries of a timer are what waits by the history. -/
structure Kept (history : List Event) (t : Timer) : Prop where
  fits : Throughout Fits history
  orders : (history.filterMap Event.entry?).map (·.order) = List.range t.count
  waits : ∀ s, s ∈ t.tasks ↔ Waits history s
  once : (history.filterMap Event.yielded?).Nodup
  /-- What was handed out is not there any more and does not come back. -/
  gone : ∀ s ∈ history.filterMap Event.yielded?, s.order < t.count ∧ s ∉ t.tasks

namespace Kept

theorem start : Kept [] {} where
  fits := throughout_nil _
  orders := rfl
  waits := fun _ => iff_of_false List.not_mem_nil fun ⟨_, here, _⟩ => nomatch here
  once := List.nodup_nil
  gone := fun _ yielded => nomatch yielded

theorem count (kept : Kept history t) : (history.filterMap Event.entry?).length = t.count := by
  rw [← List.length_map (·.order), kept.orders, List.length_range]

theorem schedule (kept : Kept history t) (deadline : Instant) (task : Task) :
    Kept (history ++ [.scheduled ⟨deadline, t.count, task⟩]) (t.scheduleAt deadline task) where
  fits := kept.fits.append kept.count.symm
  orders := by
    rw [List.filterMap_append, List.map_append, kept.orders, count_scheduleAt, List.range_succ]
    rfl
  waits := by
    intro s
    rw [mem_scheduleAt_iff, waits_append, kept.waits, Event.scheduled.injEq, eq_comm]
    rfl
  once := by
    rw [filterMap_append_of_none rfl]
    exact kept.once
  gone := by
    intro s yielded
    rw [filterMap_append_of_none rfl] at yielded
    rcases kept.gone s yielded with ⟨old, absent⟩
    refine ⟨count_scheduleAt ▸ Nat.lt_succ_of_lt old, fun member => ?_⟩
    rcases mem_scheduleAt_iff.mp member with rfl | ⟨present, -⟩
    · exact Nat.lt_irrefl _ old
    · exact absent present

/-- An event that schedules nothing takes from a timer what it ends and leaves the rest. -/
theorem fewer (kept : Kept history t) (fits : Fits history event) (silent : event.entry? = none)
    (count : next.count = t.count) (fewer : next.tasks.Sublist t.tasks)
    (waits : ∀ s, s ∈ next.tasks ↔ s ∈ t.tasks ∧ ¬ event.Ends s) :
    Kept (history ++ [event]) next where
  fits := kept.fits.append fits
  orders := by
    rw [filterMap_append_of_none silent, count]
    exact kept.orders
  waits := by
    intro s
    have hOther : event ≠ .scheduled s := by
      rintro rfl
      cases silent
    rw [waits, waits_append, ← kept.waits, or_iff_right hOther]
  once := by
    have hSilent : event.yielded? = none →
        ((history ++ [event]).filterMap Event.yielded?).Nodup := by
      intro none_yielded
      rw [filterMap_append_of_none none_yielded]
      exact kept.once
    cases event with
    | yielded entry task time =>
      rw [List.filterMap_append]
      refine List.nodup_append.mpr ⟨kept.once, List.pairwise_singleton _ _, ?_⟩
      rintro s before other now rfl
      rw [List.mem_singleton.mp now] at before
      exact (kept.gone entry before).2 ((kept.waits entry).mpr fits.1)
    | scheduled => exact hSilent rfl
    | cancelled => exact hSilent rfl
    | idle => exact hSilent rfl
  gone := by
    intro s yielded
    rw [count]
    rw [List.filterMap_append] at yielded
    rcases List.mem_append.mp yielded with before | now
    · rcases kept.gone s before with ⟨old, absent⟩
      exact ⟨old, fun member => absent (fewer.subset member)⟩
    · cases event with
      | yielded entry task time =>
        rw [List.mem_singleton.mp now]
        refine ⟨t.consistent.older entry ((kept.waits entry).mpr fits.1), fun member => ?_⟩
        exact ((waits entry).mp member).2 rfl
      | scheduled => cases now
      | cancelled => cases now
      | idle => cases now

theorem cancel (kept : Kept history t) (id : TransactionId) :
    Kept (history ++ [.cancelled id (t.cancel id).1]) (t.cancel id).2 := by
  refine kept.fewer ?_ rfl rfl ?_ fun s => mem_removeTimeout
  · rw [Fits, fst_cancel, hasTimeout_iff]
    simp only [kept.waits]
  · exact tasks_removeTimeout t id ▸ List.filter_sublist

/-- If the first entry is not due, none is. -/
theorem idle (kept : Kept history t) (same : Same t next)
    (early : ∀ s, t.tasks.head? = some s → now < s.deadline) :
    Kept (history ++ [.idle now]) next := by
  refine kept.fewer ?_ rfl same.count (same.tasks ▸ .refl _) fun s => ?_
  · intro s waits
    have hMember := (kept.waits s).mpr waits
    have hSorted := t.consistent.sorted
    cases tasks : t.tasks with
    | nil =>
      rw [tasks] at hMember
      cases hMember
    | cons first rest =>
      rw [tasks] at hMember hSorted early
      have hFirst := early first rfl
      rcases List.mem_cons.mp hMember with rfl | behind
      · exact hFirst
      · have hBefore := (List.pairwise_cons.mp hSorted).1 s behind
        exact Nat.lt_of_lt_of_le hFirst hBefore.deadline_le
  · rw [same.tasks]
    exact (and_iff_left fun goes_on => goes_on).symm

/-- If there is no entry, none is due. -/
theorem vain (kept : Kept history t) (empty : t.tasks = []) (now : Instant) :
    Kept (history ++ [.idle now]) t := by
  refine kept.idle ⟨rfl, rfl⟩ fun s first => ?_
  rw [empty] at first
  cases first

/-- The first entry comes before all others. -/
theorem yield (kept : Kept history t) (taken : Taken s t rest) (due : s.deadline ≤ now) :
    Kept (history ++ [.yielded s s.task now]) rest := by
  have hSorted := t.consistent.sorted
  rw [taken.tasks] at hSorted
  have hFirst := (List.pairwise_cons.mp hSorted).1
  have hApart : s ∉ rest.tasks := fun again => (hFirst s again).ne rfl
  have hMember : ∀ other, other ∈ t.tasks ↔ other = s ∨ other ∈ rest.tasks := by
    intro other
    rw [taken.tasks]
    exact List.mem_cons
  refine kept.fewer ⟨?_, rfl, due, ?_⟩ rfl taken.count ?_ ?_
  · exact (kept.waits s).mp ((hMember s).mpr (.inl rfl))
  · intro other waits another
    exact hFirst other (((hMember other).mp ((kept.waits other).mpr waits)).resolve_left another)
  · rw [taken.tasks]
    exact List.sublist_cons_self s rest.tasks
  · intro other
    rw [hMember]
    constructor
    · intro behind
      refine ⟨.inr behind, fun same => hApart ?_⟩
      rw [show s = other from same]
      exact behind
    · rintro ⟨same | behind, another⟩
      · exact absurd same.symm another
      · exact behind

theorem handOut (kept : Kept history t) (taken : Taken s t rest) (due : s.deadline ≤ now) :
    Kept (history ++ (t.handOut s.task now).toList) rest := by
  have hYielded := kept.yield taken due
  unfold Timer.handOut
  rw [taken.tasks]
  exact hYielded

theorem answered {answer : Poll × Timer} (kept : Kept history t) (polled : Polled t now answer) :
    Kept (history ++ (t.answered now answer).1.toList) (t.answered now answer).2.2 := by
  cases polled with
  | ready tasks count due => exact kept.handOut ⟨tasks, count⟩ due
  | pending tasks count first early =>
    refine kept.idle ⟨tasks, count⟩ fun s head => ?_
    rw [first] at head
    rw [← Option.some.inj head]
    exact early
  | ended empty => exact kept.vain empty now

theorem awaken {wait : Wait} (kept : Kept history t) (waited : Waited t wait) (now : Instant) :
    Kept (history ++ (t.awaken now wait).1.toList) (t.awaken now wait).2.2 := by
  cases waited with
  | task taken due => exact kept.handOut taken due
  | nothing empty => exact kept.vain empty now
  | elapsed same early => exact kept.idle same early

theorem call (kept : Kept history t) (now : Instant) (c : Call) :
    Kept (history ++ (t.call now c).1.toList) (t.call now c).2.2 := by
  cases c with
  | scheduleIn delay task => exact kept.schedule (now + delay) task
  | scheduleAt deadline task => exact kept.schedule deadline task
  | cancel id => exact kept.cancel id
  | advance time =>
    unfold Timer.call
    rw [Option.toList_none, List.append_nil]
    exact kept
  | poll => exact kept.answered (polled_poll t now)
  | wait => exact kept.awaken (waited_wait t now) now
  | waitWithin limit => exact kept.awaken (waited_waitWithin t now limit) now

theorem run (now : Instant) (calls : List Call) :
    Kept (run now calls).1 (run now calls).2.2 := by
  have hFrom : ∀ past : List Event × Instant × Timer, Kept past.1 past.2.2 →
      Kept (calls.foldl record past).1 (calls.foldl record past).2.2 := by
    induction calls with
    | nil => exact fun _ kept => kept
    | cons c calls ih => exact fun past kept => ih (record past c) (kept.call past.2.1 c)
  exact hFrom ([], now, {}) start

end Kept

/-- A time-out that was scheduled anew is handed out once, at the later time. -/
example :
    (run 0 [.scheduleIn 1000 (.queryTimeout ⟨7⟩), .scheduleIn 5000 (.queryTimeout ⟨7⟩), .wait,
      .wait]).1 =
      [.scheduled ⟨1000, 0, .queryTimeout ⟨7⟩⟩, .scheduled ⟨5000, 1, .queryTimeout ⟨7⟩⟩,
        .yielded ⟨5000, 1, .queryTimeout ⟨7⟩⟩ (.queryTimeout ⟨7⟩) 5000, .idle 5000] := by
  decide

end Timer
end Kademlia
