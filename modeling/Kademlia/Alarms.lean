import Kademlia.Sequence
import Kademlia.Time

namespace Kademlia

/-!
Alarms, and in which order those ring that are set for the same time.

An alarm lies in a slot of a wheel.  Slots near the present are one millisecond wide, those further
off 64 times as wide, and so on; at the start of its slot an alarm is looked at, and rings or moves
to a narrower slot.  Within a slot, alarms keep the order in which they were put there.  So alarms
for the same time ring in the order in which they were set, except that an alarm that is put off
stays where it is until its slot comes up, and queues up again only then.
-/

/-- An alarm: whom it wakes and when, and when it is looked at next. -/
structure Alarm (α : Type) where
  sleeper : α
  time : Instant
  look : Instant
deriving DecidableEq, Repr

/-- All alarms, in the order in which they were put into their slots, and the present time. -/
structure Alarms (α : Type) where
  now : Instant := 0
  queue : List (Alarm α) := []
deriving Repr

namespace Alarms

/-- How many widths of slots there are besides the narrowest. -/
def levels : Nat := 5

/-- When the slot starts that an alarm is put in.  It is as narrow as it can be while the slot of the
next width around it does not lie in the future; only the widest slots may lie anywhere. -/
def slotStart : Nat → Instant → Instant → Instant
  | 0, _, time => time
  | level + 1, now, time =>
    if now / 64 = time / 64 then time else 64 * slotStart level (now / 64) (time / 64)

variable {α : Type}

/-- Puts an alarm into its slot, behind those that are there. -/
def put (a : Alarms α) (sleeper : α) (time : Instant) : Alarms α :=
  { a with queue := a.queue ++ [⟨sleeper, time, slotStart levels a.now time⟩] }

section Sleeper
variable [DecidableEq α]

/-- Takes out the alarm of a sleeper. -/
def cancel (a : Alarms α) (sleeper : α) : Alarms α :=
  { a with queue := a.queue.filter (·.sleeper ≠ sleeper) }

/-- When the alarm of a sleeper rings, if it is set. -/
def time? (a : Alarms α) (sleeper : α) : Option Instant :=
  (a.queue.find? (·.sleeper = sleeper)).map (·.time)

/-- Sets the alarm of a sleeper.  If it was set for the same time or an earlier one, it stays in its
slot. -/
def set (a : Alarms α) (sleeper : α) (time : Instant) : Alarms α :=
  if (a.time? sleeper).any (· ≤ time) then
    { a with queue := modifyFirst (·.sleeper = sleeper) ({ · with time }) a.queue }
  else (a.cancel sleeper).put sleeper time

end Sleeper

/-- When an alarm is looked at next. -/
def nextLook? (a : Alarms α) : Option Instant :=
  (a.queue.map (·.look)).min?

/-- Looks at the alarms whose slots have come up: those that are due ring, in order, and the others
move on. -/
def ring (a : Alarms α) (now : Instant) : List α × Alarms α :=
  let (seen, rest) := a.queue.partition (·.look ≤ now)
  let (due, later) := seen.partition (·.time ≤ now)
  (due.map (·.sleeper), later.foldl (fun a alarm => a.put alarm.sleeper alarm.time) ⟨now, rest⟩)

end Alarms
end Kademlia
