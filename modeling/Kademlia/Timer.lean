import Kademlia.Timer.Schedule

namespace Kademlia

/-!
What is to be done later.  Tasks are handed out at their deadlines, and tasks with the same deadline
in the order in which they were scheduled.  Of each query there is at most one time-out, which is
taken out again when the query is answered.
-/

/-- The scheduled tasks, and the time until which the timer sleeps. -/
structure Timer extends Schedule where
  /-- When the timer is woken, if it has ever waited for a task. -/
  sleep : Option Instant := none
  consistent : toSchedule.Consistent := by exact .empty

namespace Timer

instance : Inhabited Timer := ⟨{}⟩

def isEmpty (t : Timer) : Bool :=
  t.tasks.isEmpty

/-- Takes out the time-out of a query. -/
def removeTimeout (t : Timer) (id : TransactionId) : Timer where
  toSchedule := t.toSchedule.removeTimeout id
  sleep := t.sleep
  consistent := t.consistent.removeTimeout id

/-- Schedules a task.  A time-out takes the place of the one that its query number had. -/
def scheduleAt (t : Timer) (deadline : Instant) (task : Task) : Timer where
  toSchedule := t.toSchedule.scheduleAt deadline task
  sleep := t.sleep
  consistent := t.consistent.scheduleAt

/-- Schedules a task for some time from now. -/
def scheduleIn (t : Timer) (now : Instant) (delay : Duration) (task : Task) : Timer :=
  t.scheduleAt (now + delay) task

/-- Whether a time-out of the query is scheduled. -/
def hasTimeout (t : Timer) (id : TransactionId) : Bool :=
  t.tasks.any (·.task = .queryTimeout id)

/-- Takes out the time-out of a query that was answered.  Also tells whether there was one. -/
def cancel (t : Timer) (id : TransactionId) : Bool × Timer :=
  ((t.toSchedule.cancel id).1, t.removeTimeout id)

/-- When the first task is due. -/
def nextDeadline? (t : Timer) : Option Instant :=
  t.tasks.head?.map (·.deadline)

/-- Takes out the first task. -/
def dropFirst (t : Timer) : Timer where
  toSchedule := t.toSchedule.dropFirst
  sleep := t.sleep
  consistent := t.consistent.dropFirst

/-- What comes of asking a timer for a task. -/
inductive Poll where
  | ready (task : Task)
  /-- Nothing is due before the timer is woken, at the time given. -/
  | pending (wake : Instant)
  /-- Nothing is scheduled. -/
  | ended
deriving DecidableEq, Repr

/-- The time until which a timer sleeps for its first task.  It may still sleep for another, as
tasks come and go. -/
def wakeAt (sleep : Option Instant) (deadline : Instant) : Instant :=
  let wake := sleep.getD deadline
  if wake ≠ deadline then deadline else wake

/-- Asks for the first task.  It is taken out if it is due, or else the timer sleeps until it is. -/
def poll (t : Timer) (now : Instant) : Poll × Timer :=
  match t.tasks with
  | [] => (.ended, t)
  | first :: _ =>
    let wake := wakeAt t.sleep first.deadline
    let t := { t with sleep := some wake }
    if now < wake then (.pending wake, t) else (.ready first.task, t.dropFirst)

/-- Takes out the first task if it is due. -/
def popDue? (t : Timer) (now : Instant) : Option (Task × Timer) :=
  match t.poll now with
  | (.ready task, rest) => some (task, rest)
  | _ => none

/-- How waiting for a task ends. -/
inductive Wait where
  /-- A task came due, at the time given. -/
  | task (task : Task) (now : Instant) (rest : Timer)
  /-- There was nothing to wait for. -/
  | nothing
  /-- The time ran out. -/
  | elapsed (now : Instant) (rest : Timer)

/-- Waiting ends at a time with what the timer was asked for then. -/
def endWait (now : Instant) : Poll × Timer → Wait
  | (.ready task, rest) => .task task now rest
  | (.pending _, t) => .elapsed now t
  | (.ended, _) => .nothing

/-- Waits for the first task, however long it takes. -/
def wait (t : Timer) (now : Instant) : Wait :=
  match t.poll now with
  | (.pending wake, t) => endWait wake (t.poll wake)
  | answer => endWait now answer

/-- Waits for the first task, but no longer than a time. -/
def waitWithin (t : Timer) (now : Instant) (limit : Duration) : Wait :=
  match t.poll now with
  | (.pending wake, t) =>
    let later := min wake (now + limit)
    endWait later (t.poll later)
  | answer => endWait now answer

end Timer
end Kademlia
