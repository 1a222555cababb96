import Kademlia.LocalNode.Basic
import Kademlia.Proofs.Sequence
import Kademlia.Proofs.Timer

namespace Kademlia
namespace LocalNode

/-!
The queries that wait and their time-outs.  Between two events each query that waits has exactly one
time-out and each time-out belongs to such a query.  While an event is handled, a query may have
been taken out of both (`loose`), until those who sent it have been told; and a sweep takes out many
queries at once (`stale`), the time-outs of which go one after another.
-/

/-- The queries that wait have distinct numbers, and theirs are the time-outs. -/
structure Ledger (stale loose waiting : List Transaction) (timer : Timer) (timeout : Duration) :
    Prop where
  distinct : ((waiting ++ stale ++ loose).map (·.id)).Nodup
  scheduled : ∀ id, timer.hasTimeout id = true ↔ id ∈ (waiting ++ stale).map (·.id)
  /-- When its time-out comes up, a query has waited long enough. -/
  due : ∀ s ∈ timer.tasks, ∀ t ∈ waiting, s.task = .queryTimeout t.id →
    t.issued + timeout ≤ s.deadline

variable {stale loose waiting : List Transaction} {timer rest : Timer} {timeout : Duration}
  {t : Transaction} {id : TransactionId} {now deadline : Instant} {task : Task}

namespace Ledger

theorem eq_of_id {other : Transaction} (ledger : Ledger stale loose waiting timer timeout)
    (first : t ∈ waiting ++ stale ++ loose) (second : other ∈ waiting ++ stale ++ loose)
    (same : t.id = other.id) : t = other :=
  eq_of_nodup_map ledger.distinct first second same

theorem start : Ledger [] [] [] (({} : Timer).scheduleAt deadline .maintenance)
    timeout where
  distinct := List.nodup_nil
  scheduled := by
    intro id
    rw [Timer.hasTimeout_scheduleAt_other fun _ => Task.noConfusion]
    exact iff_of_false Bool.false_ne_true (List.not_mem_nil)
  due := fun _ _ _ waits => absurd waits List.not_mem_nil

theorem nodup (ledger : Ledger [] [] waiting timer timeout) : (waiting.map (·.id)).Nodup := by
  have hDistinct := ledger.distinct
  rw [List.append_nil, List.append_nil] at hDistinct
  exact hDistinct

/-- The order in which queries wait is of no account. -/
theorem perm {others : List Transaction} (ledger : Ledger stale loose waiting timer timeout)
    (same : others.Perm waiting) : Ledger stale loose others timer timeout := by
  have hStale := same.append_right stale
  refine ⟨((hStale.append_right loose).map _).symm.nodup ledger.distinct, ?_, ?_⟩
  · intro id
    rw [ledger.scheduled, (hStale.map _).mem_iff]
  · exact fun s scheduled t waits => ledger.due s scheduled t (same.mem_iff.mp waits)

/-- A query is sent under a number that is not in use. -/
theorem send (ledger : Ledger stale [] waiting timer timeout)
    (unused : timer.hasTimeout t.id = false) :
    Ledger stale [] (waiting ++ [t])
      (timer.scheduleAt (t.issued + timeout) (.queryTimeout t.id)) timeout := by
  have hPerm : (waiting ++ [t] ++ stale).Perm (t :: (waiting ++ stale)) := by
    rw [List.append_assoc]
    exact List.perm_middle
  have hNew : t.id ∉ (waiting ++ stale).map (·.id) := by
    intro known
    rw [← ledger.scheduled, unused] at known
    exact Bool.false_ne_true known
  have hDistinct := ledger.distinct
  rw [List.append_nil] at hDistinct
  refine ⟨?_, ?_, ?_⟩
  · rw [List.append_nil]
    exact (hPerm.map _).symm.nodup (List.nodup_cons.mpr ⟨hNew, hDistinct⟩)
  · intro id
    rw [Timer.hasTimeout_scheduleAt, ledger.scheduled, (hPerm.map _).mem_iff, List.map_cons,
      List.mem_cons]
  · intro s scheduled other waits same
    rcases Timer.mem_scheduleAt scheduled with rfl | old
    · have hOther : other = t := by
        have hId := Task.queryTimeout.inj same
        rcases List.mem_append.mp waits with before | new
        · refine absurd (List.mem_map.mpr ⟨other, List.mem_append_left _ before, ?_⟩) hNew
          exact hId.symm
        · exact List.mem_singleton.mp new
      subst hOther
      exact Nat.le_refl _
    · rcases List.mem_append.mp waits with before | new
      · exact ledger.due s old other before same
      · rw [List.mem_singleton.mp new] at same
        have hTimed := Timer.hasTimeout_iff.mpr ⟨s, old, same⟩
        rw [unused] at hTimed
        exact absurd hTimed Bool.false_ne_true

/-- A query is taken out, and its time-out with it. -/
theorem takeOut {kept left : List Transaction} {later : Timer}
    (ledger : Ledger stale [] waiting timer timeout)
    (perm : (waiting ++ stale).Perm (t :: (left ++ kept))) (fewer : ∀ t ∈ left, t ∈ waiting)
    (tasks : ∀ s ∈ later.tasks, s ∈ timer.tasks)
    (untimed : ∀ id, later.hasTimeout id = true ↔ id ≠ t.id ∧ timer.hasTimeout id = true) :
    Ledger kept [t] left later timeout := by
  have hDistinct := ledger.distinct
  rw [List.append_nil] at hDistinct
  have hApart := List.nodup_cons.mp ((perm.map (·.id)).nodup hDistinct)
  refine ⟨?_, ?_, ?_⟩
  · rw [List.map_append]
    refine (List.perm_append_singleton _ _).symm.nodup (List.nodup_cons.mpr hApart)
  · intro id
    rw [untimed, ledger.scheduled, (perm.map _).mem_iff, List.map_cons, List.mem_cons]
    constructor
    · rintro ⟨another, same | known⟩
      · exact absurd same another
      · exact known
    · intro known
      refine ⟨?_, .inr known⟩
      rintro rfl
      exact hApart.1 known
  · intro s scheduled other waits same
    exact ledger.due s (tasks s scheduled) other (fewer other waits) same

theorem perm_takeOut (ledger : Ledger stale loose waiting timer timeout) (waits : t ∈ waiting) :
    (waiting ++ stale).Perm (t :: (waiting.filter (·.id ≠ t.id) ++ stale)) := by
  have hDistinct := ledger.distinct
  rw [List.append_assoc, List.map_append] at hDistinct
  exact (perm_cons_filter_ne (List.nodup_append.mp hDistinct).1 waits).append_right stale

/-- A query is answered. -/
theorem answer (ledger : Ledger stale [] waiting timer timeout) (waits : t ∈ waiting) :
    Ledger stale [t] (waiting.filter (·.id ≠ t.id)) (timer.removeTimeout t.id) timeout := by
  refine ledger.takeOut (ledger.perm_takeOut waits) ?_ ?_ ?_
  · exact fun _ waiting => (List.mem_filter.mp waiting).1
  · exact fun s scheduled => (Timer.mem_removeTimeout.mp scheduled).1
  · exact fun _ => Timer.hasTimeout_removeTimeout

/-- The time-out of a query comes up. -/
theorem popTimeout (ledger : Ledger [] [] waiting timer timeout)
    (popped : timer.popDue? now = some (.queryTimeout id, rest)) :
    ∃ t ∈ waiting, t.id = id ∧ t.issued + timeout ≤ now ∧
      Ledger [] [t] (waiting.filter (·.id ≠ t.id)) rest timeout := by
  rcases Timer.popDue?_eq_some popped with ⟨s, tasks, due, same⟩
  have hScheduled : s ∈ timer.tasks := by
    rw [tasks]
    exact List.mem_cons_self
  have hKnown := (ledger.scheduled id).mp (Timer.hasTimeout_iff.mpr ⟨s, hScheduled, same⟩)
  rw [List.append_nil] at hKnown
  rcases List.mem_map.mp hKnown with ⟨t, waits, rfl⟩
  refine ⟨t, waits, rfl, Nat.le_trans (ledger.due s hScheduled t waits same) due, ?_⟩
  refine ledger.takeOut (ledger.perm_takeOut waits) ?_ ?_ ?_
  · exact fun _ waiting => (List.mem_filter.mp waiting).1
  · intro s later
    rw [tasks]
    exact List.mem_cons_of_mem _ later
  · intro other
    rw [Timer.hasTimeout_of_popDue? popped]
    refine and_congr_left fun _ => not_congr ⟨?_, ?_⟩
    · exact fun same => (Task.queryTimeout.inj same).symm
    · rintro rfl
      rfl

/-- Some of the queries that wait are swept out, in whatever order. -/
theorem sweep {swept : List Transaction} (ledger : Ledger [] [] waiting timer timeout)
    (old : Transaction → Bool) (order : swept.Perm (waiting.filter old)) :
    Ledger swept [] (waiting.filter fun t => !old t) timer timeout := by
  have hPerm : (waiting.filter (fun t => !old t) ++ swept).Perm waiting :=
    ((order.append_left _).trans List.perm_append_comm).trans (List.filter_append_perm old waiting)
  have hDistinct := ledger.distinct
  have hScheduled := ledger.scheduled
  rw [List.append_nil, List.append_nil] at hDistinct
  simp only [List.append_nil] at hScheduled
  refine ⟨?_, ?_, ?_⟩
  · rw [List.append_nil]
    exact (hPerm.map _).symm.nodup hDistinct
  · intro id
    rw [hScheduled, (hPerm.map _).mem_iff]
  · intro s scheduled t waits same
    exact ledger.due s scheduled t (List.mem_filter.mp waits).1 same

/-- The time-out of a query that was swept out goes. -/
theorem unschedule (ledger : Ledger (t :: stale) [] waiting timer timeout) :
    Ledger stale [t] waiting (timer.removeTimeout t.id) timeout := by
  refine ledger.takeOut List.perm_middle (fun _ waits => waits) ?_ ?_
  · exact fun s scheduled => (Timer.mem_removeTimeout.mp scheduled).1
  · exact fun _ => Timer.hasTimeout_removeTimeout

/-- Those who sent a query that was taken out have been told. -/
theorem settle (ledger : Ledger stale loose waiting timer timeout) :
    Ledger stale [] waiting timer timeout := by
  refine ⟨?_, ledger.scheduled, ledger.due⟩
  have hDistinct := ledger.distinct
  rw [List.map_append] at hDistinct
  rw [List.append_nil]
  exact (List.nodup_append.mp hDistinct).1

/-- A task that is no time-out is scheduled. -/
theorem schedule (ledger : Ledger stale loose waiting timer timeout)
    (another : ∀ id, task ≠ .queryTimeout id) :
    Ledger stale loose waiting (timer.scheduleAt deadline task) timeout := by
  refine ⟨ledger.distinct, ?_, ?_⟩
  · intro id
    rw [Timer.hasTimeout_scheduleAt_other another, ledger.scheduled]
  · intro s scheduled t waits same
    rcases Timer.mem_scheduleAt scheduled with rfl | old
    · exact absurd same (another t.id)
    · exact ledger.due s old t waits same

/-- A task that is no time-out comes up. -/
theorem pop (ledger : Ledger stale loose waiting timer timeout)
    (popped : timer.popDue? now = some (task, rest)) (another : ∀ id, task ≠ .queryTimeout id) :
    Ledger stale loose waiting rest timeout := by
  refine ⟨ledger.distinct, ?_, ?_⟩
  · intro id
    rw [Timer.hasTimeout_of_popDue? popped, ledger.scheduled]
    exact and_iff_right (another id)
  · intro s scheduled t waits same
    rcases Timer.popDue?_eq_some popped with ⟨first, tasks, -, -⟩
    refine ledger.due s ?_ t waits same
    rw [tasks]
    exact List.mem_cons_of_mem _ scheduled

end Ledger
end LocalNode
end Kademlia
