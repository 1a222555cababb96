import Kademlia.LocalNode.Joining
import Kademlia.Proofs.LocalNode.Handling

namespace Kademlia
namespace LocalNode

/-!
Joining the network and wrapping up lookups keep the books in balance.  When all is wrapped up,
every lookup that is left waits for an answer.
-/

variable {stale : List Transaction} {driven : Driven} {w : Wrapping} {n : LocalNode} {b : Books}
  {k : LookupId} {env : Surroundings} {rest : List LookupId} {contacts : List Contact}

/-! ## The refresh of the table -/

theorem InBalance.sendRefreshes {queries : List (Contact × Query)}
    (balance : InBalance stale [] driven w n) :
    InBalance stale [] driven w (queries.foldl (fun n (contact, query) =>
      (n.sendQuery env contact.address (some contact.id) query .refresh).2) n) := by
  induction queries generalizing n with
  | nil => exact balance
  | cons first queries ih =>
    apply ih
    exact balance.sendFree ⟨nofun, nofun⟩

theorem InBalance.refreshTick (balance : InBalance stale [] driven w n) :
    InBalance stale [] driven w (n.refreshTick env) := by
  unfold LocalNode.refreshTick
  apply InBalance.schedule
  · exact InBalance.sendRefreshes (balance.congr rfl)
  · exact nofun

/-! ## Joining -/

theorem books_answerWaiting (n : LocalNode) (success : Bool) :
    (n.answerWaiting success).books = n.books := by
  unfold LocalNode.answerWaiting
  rw [foldl_keeps books fun _ _ => books_emit _ _]
  rfl

theorem InBalance.bootstrapSucceeded (balance : InBalance stale [] .nothing w n) :
    InBalance stale [] .nothing w (n.bootstrapSucceeded env) := by
  unfold LocalNode.bootstrapSucceeded
  apply InBalance.startQueued
  have hTold : InBalance stale [] .nothing w
      (((n.setState .connected).notify .bootstrapCompleted).answerWaiting true) := by
    apply balance.congr
    rw [books_answerWaiting]
    exact books_setState n .connected
  split
  · exact hTold
  · exact InBalance.refreshTick (hTold.congr rfl)

theorem InBalance.startBootstrap (balance : InBalance stale [] .nothing {} n) :
    InBalance stale [] .nothing {} (n.startBootstrap env) := by
  unfold LocalNode.startBootstrap
  split
  · exact balance
  · have hConnecting : InBalance stale [] .nothing {}
        (if n.state = .connected then n else n.setState .connecting) := by
      split
      · exact balance
      · exact balance.congr (books_setState n .connecting)
    generalize (if n.state = .connected then n else n.setState .connecting) = m at hConnecting ⊢
    dsimp only
    split
    · exact InBalance.bootstrapSucceeded (hConnecting.congr rfl)
    · have hLooking : InBalance stale [] .nothing {}
          (if m.bootstrap.needsLookUp then m.emit .lookingUp else m) := by
        split
        · exact hConnecting.congr rfl
        · exact hConnecting
      generalize (if m.bootstrap.needsLookUp then m.emit .lookingUp else m) = m' at hLooking ⊢
      have hIdle := Lookup.start_idle m'.id .findNode false
      apply InBalance.launch (w := {})
      · exact (hLooking.unlimited).congr rfl
      · exact (hIdle _ _ _ _).2
      · exact (hIdle _ _ _ _).1
      · exact .start ..

theorem InBalance.bootstrapLookupCompleted (balance : InBalance stale [] .nothing w n) :
    InBalance stale [] .nothing w (n.bootstrapLookupCompleted env) := by
  unfold LocalNode.bootstrapLookupCompleted
  dsimp only
  split
  next => exact InBalance.bootstrapSucceeded (balance.congr rfl)
  next =>
    apply InBalance.schedule
    · split
      · apply InBalance.startQueued
        apply balance.congr
        rw [books_answerWaiting]
        rfl
      · exact balance.congr rfl
    · exact nofun

/-! ## Wrapping up -/

theorem InBalance.release (balance : InBalance stale [] driven w n) :
    InBalance stale [] driven { w with retired := none } n := by
  intro once
  have hBalanced := balance once
  exact ⟨hBalanced.ledger, hBalanced.searches, hBalanced.announcing,
    { hBalanced.numbered with retired := nofun }⟩

theorem InBalance.deliver {sink : Sink} {outcome : LookupOutcome}
    (balance : InBalance stale [] .nothing
      { w with retired := some (k, outcome.announceTargets.map (·.1)) } n) :
    InBalance stale [] .nothing { w with retired := none } (n.deliver env k sink outcome) := by
  unfold LocalNode.deliver
  cases sink with
  | contacts call => exact balance.release.congr rfl
  | peers stream =>
    dsimp only
    split
    · exact InBalance.startAnnounce balance
    · exact balance.release.congr rfl
  | nowhere =>
    dsimp only
    split
    · exact InBalance.startAnnounce balance
    · exact balance.release

theorem updates_retire (b : Books) (k : LookupId) :
    Updates b.lookup? k none
      ({ b with lookups := b.lookups.filter (·.1 ≠ k) } : Books).lookup? := by
  intro other
  unfold Books.lookup?
  rw [lookup_filter_ne]
  split <;> rfl

/-- One lookup less is to be wrapped up. -/
theorem Numbered.popCompleted {limit : Nat}
    (numbered : Numbered { w with work := some (limit + 1) } b)
    (completed : b.completed = k :: rest) :
    Numbered { w with work := some limit } { b with completed := rest } := by
  refine ⟨numbered.lookups, numbered.announces, numbered.lookups_below, numbered.announces_below,
    ?_, numbered.apart, numbered.retired, ?_⟩
  · intro other member
    apply numbered.completed_below
    rw [completed]
    exact List.mem_cons_of_mem _ member
  · intro _ same
    cases same
    have hWork := numbered.work (limit + 1) rfl
    rw [completed, List.length_cons] at hWork
    dsimp only at hWork ⊢
    omega

/-- A lookup is taken out, and its number is free for an announcement. -/
theorem Numbered.retire (numbered : Numbered w b) (known : k ∈ b.lookups.map (·.1))
    (distinct : contacts.Nodup) :
    Numbered { w with retired := some (k, contacts) }
      { b with lookups := b.lookups.filter (·.1 ≠ k) } := by
  have hKeys : List.Sublist ((b.lookups.filter (·.1 ≠ k)).map (·.1)) (b.lookups.map (·.1)) :=
    List.filter_sublist.map _
  refine ⟨List.Nodup.sublist hKeys numbered.lookups, numbered.announces, ?_,
    numbered.announces_below, numbered.completed_below, ?_, ?_, numbered.work⟩
  · exact fun other left => numbered.lookups_below other (hKeys.subset left)
  · exact fun other left => numbered.apart other (hKeys.subset left)
  · intro other tell same
    cases same
    refine ⟨distinct, numbered.lookups_below k known, ?_, numbered.apart k known⟩
    intro left
    rcases List.mem_map.mp left with ⟨entry, kept, rfl⟩
    exact of_decide_eq_true (List.mem_filter.mp kept).2 rfl

/-- The lookup that was found to be done last is gone already. -/
theorem Balanced.skip {limit : Nat}
    (balanced : Balanced [] [] .nothing { w with work := some (limit + 1) } b)
    (completed : b.completed = k :: rest) (absent : b.lookup? k = none) :
    Balanced [] [] .nothing { w with work := some limit } { b with completed := rest } where
  ledger := balanced.ledger
  searches := by
    have hSearches := balanced.searches
    rw [completed] at hSearches
    exact hSearches.remove (.refl absent)
  announcing := balanced.announcing
  numbered := balanced.numbered.popCompleted completed

/-- The lookup that was found to be done last is taken out. -/
theorem Balanced.retire {limit : Nat} {l : Lookup}
    (balanced : Balanced [] [] .nothing { w with work := some (limit + 1) } b)
    (completed : b.completed = k :: rest) (found : b.lookup? k = some l) :
    Balanced [] [] .nothing
      { w with retired := some (k, l.finish.announceTargets.map (·.1)), work := some limit }
      { b with completed := rest, lookups := b.lookups.filter (·.1 ≠ k) } where
  ledger := balanced.ledger
  searches := by
    have hSearches := balanced.searches
    rw [completed] at hSearches
    exact hSearches.remove (updates_retire b k)
  announcing := balanced.announcing
  numbered := by
    have hSorted := (balanced.searches.linked k l found).sorted
    exact (balanced.numbered.popCompleted completed).retire (lookup_mem_keys found)
      hSorted.nodup_announceTargets

theorem InBalance.lookupCompleted {limit : Nat}
    (balance : InBalance [] [] .nothing { work := some (limit + 1) } n)
    (completed : n.completed = k :: rest) :
    InBalance [] [] .nothing { work := some limit }
      ({ n with completed := rest }.lookupCompleted env k) := by
  unfold LocalNode.lookupCompleted
  dsimp only
  cases entered : n.lookups.lookup k with
  | none =>
    intro once
    have hAbsent : n.books.lookup? k = none := congrArg (Option.map ActiveLookup.lookup) entered
    exact (balance once).skip (w := {}) completed hAbsent
  | some active =>
    dsimp only
    have hRetired : InBalance [] [] .nothing
        { retired := some (k, active.lookup.finish.announceTargets.map (·.1)),
          work := some limit }
        { n with completed := rest, lookups := n.lookups.filter (·.1 ≠ k) } := fun once =>
      (balance once).retire (w := {}) completed (lookup?_of_entered entered)
    apply InBalance.deliver (w := { work := some limit })
    split
    · exact InBalance.bootstrapLookupCompleted (hRetired.congr rfl)
    · exact hRetired.congr rfl

/-- The books are in balance, and all lookups that are done have been wrapped up. -/
def AtRest (n : LocalNode) : Prop :=
  n.reused = false → Balanced [] [] .nothing {} n.books ∧ n.completed = []

/-- Whatever is done in the meantime, the lookups that can be done run out. -/
theorem InBalance.wrapUpSome {count : Nat}
    (balance : InBalance [] [] .nothing { work := some count } n) :
    AtRest (n.wrapUpSome env count) := by
  induction count generalizing n with
  | zero =>
    intro once
    refine ⟨balance.unlimited once, ?_⟩
    have hWork : n.completed.length + n.queued.length + 0 ≤ 0 :=
      (balance once).numbered.work 0 rfl
    have hNone : n.completed.length = 0 := by omega
    exact List.eq_nil_of_length_eq_zero hNone
  | succ count ih =>
    rw [LocalNode.wrapUpSome]
    cases completed : n.completed with
    | nil => exact fun once => ⟨balance.unlimited once, completed⟩
    | cons k rest => exact ih (balance.lookupCompleted completed)

theorem InBalance.wrapUp (balance : InBalance [] [] .nothing {} n) : AtRest (n.wrapUp env) := by
  unfold LocalNode.wrapUp
  apply InBalance.wrapUpSome
  intro once
  have hBalanced := balance once
  refine ⟨hBalanced.ledger, hBalanced.searches, hBalanced.announcing,
    { hBalanced.numbered with work := ?_ }⟩
  intro limit same
  cases same
  exact Nat.le_refl _

end LocalNode
end Kademlia
