import Kademlia.Proofs.LocalNode.Balance

namespace Kademlia
namespace LocalNode

/-!
Driving a lookup on keeps the books in balance.  The steps that it is given are enough for the
rounds that it can begin, so that it comes to wait for an answer or is done.
-/

variable {stale : List Transaction} {w : Wrapping} {n : LocalNode} {b : Books} {k : LookupId}
  {l next : Lookup} {steps : Nat} {env : Surroundings} {t : Transaction} {query : Query}
  {nodeId : Option NodeId}

theorem isSearch_query (l : Lookup) (own : NodeId) : IsSearch (l.query own) := by
  unfold Lookup.query
  cases l.kind with
  | findNode => exact .inl rfl
  | getPeers => exact .inr rfl

/-! ## Queries -/

theorem Balanced.lookupSent (balanced : Balanced stale [] (.lookup k steps) w b)
    (found : b.lookup? k = some l) (owner : t.owner = .lookup k) (isSearch : IsSearch t.query)
    (unused : b.timer.hasTimeout t.id = false) :
    Balanced stale [] (.lookup k steps) w ((b.send t).changeLookup k (·.sent t.id nodeId)) where
  ledger := balanced.ledger.send unused
  searches := balanced.searches.sent found owner isSearch (fun _ => owed_send)
    (@updates_changeLookup (b.send t) k l found _)
  announcing := by
    apply balanced.announcing.add fun _ => owed_send
    rw [owner]
    exact nofun
  numbered := (balanced.numbered.send t).changeLookup _

theorem Balanced.lookupSendFailed (balanced : Balanced stale [] (.lookup k steps) w b)
    (found : b.lookup? k = some l) :
    Balanced stale [] (.lookup k steps) w (b.changeLookup k (·.sendFailed nodeId)) where
  ledger := balanced.ledger
  searches := balanced.searches.sendFailed found (updates_changeLookup found _)
  announcing := balanced.announcing
  numbered := balanced.numbered.changeLookup _

theorem InBalance.queryTarget {target : Destination × Option NodeId}
    (balance : InBalance stale [] (.lookup k steps) w n) (isSearch : IsSearch query) :
    InBalance stale [] (.lookup k steps) w (n.queryTarget env k query target) := by
  unfold LocalNode.queryTarget
  have hSent := sendQuery_cases env n target.1 target.2 query (.lookup k)
  generalize n.sendQuery env target.1 target.2 query (.lookup k) = sent at hSent ⊢
  cases hSent with
  | lost lost =>
    intro once
    rcases lost once with ⟨before, same⟩
    rw [books_modifyLookup, same]
    rcases (balance before).searches.driven k steps rfl with ⟨l, found, -, -⟩
    exact (balance before).lookupSendFailed found
  | out t _ _ same_query owner sent =>
    intro once
    rcases sent once with ⟨before, unused, same⟩
    rw [books_modifyLookup, same]
    rcases (balance before).searches.driven k steps rfl with ⟨l, found, -, -⟩
    rw [← same_query] at isSearch
    exact (balance before).lookupSent found owner isSearch unused

theorem InBalance.queryTargets {targets : List (Destination × Option NodeId)}
    (balance : InBalance stale [] (.lookup k steps) w n) (isSearch : IsSearch query) :
    InBalance stale [] (.lookup k steps) w
      (targets.foldl (LocalNode.queryTarget env k query) n) := by
  induction targets generalizing n with
  | nil => exact balance
  | cons target targets ih => exact ih (balance.queryTarget isSearch)

/-! ## Steps -/

theorem Balanced.lookupWaits
    (balanced : Balanced stale [] (.lookup k steps) { w with ahead := w.ahead + 1 } b)
    (found : b.lookup? k = some l) (pending : l.pending ≠ []) :
    Balanced stale [] .nothing w (b.changeLookup k fun _ => l) where
  ledger := balanced.ledger
  searches := balanced.searches.waits found pending (updates_changeLookup found _)
  announcing := balanced.announcing
  numbered := (balanced.numbered.fewer (Nat.le_succ _)).changeLookup _

theorem Balanced.lookupRound (balanced : Balanced stale [] (.lookup k (steps + 1)) w b)
    (found : b.lookup? k = some l) (isDone : next.isDone = l.isDone)
    (pending : next.pending = l.pending) (sorted : next.Sorted) (less : next.budget < l.budget) :
    Balanced stale [] (.lookup k steps) w (b.changeLookup k fun _ => next) where
  ledger := balanced.ledger
  searches := balanced.searches.round found isDone pending sorted less
    (updates_changeLookup found _)
  announcing := balanced.announcing
  numbered := balanced.numbered.changeLookup _

theorem Balanced.lookupDone
    (balanced : Balanced stale [] (.lookup k steps) { w with ahead := w.ahead + 1 } b)
    (found : b.lookup? k = some l) (idle : l.pending = []) (isDone : next.isDone = true)
    (pending : next.pending = l.pending) (sorted : next.Sorted) :
    Balanced stale [] .nothing w ((b.complete k).changeLookup k fun _ => next) where
  ledger := balanced.ledger
  searches := balanced.searches.finish found idle isDone pending sorted
    (@updates_changeLookup (b.complete k) k l found _)
  announcing := balanced.announcing
  numbered := (balanced.numbered.complete (lookup_mem_keys found)).changeLookup _

/-- A lookup that is driven on comes to wait for an answer, or is done. -/
theorem InBalance.driveSteps
    (balance : InBalance stale [] (.lookup k steps) { w with ahead := w.ahead + 1 } n) :
    InBalance stale [] .nothing w (n.driveSteps env k steps) := by
  induction steps generalizing n with
  | zero =>
    intro once
    rcases (balance once).searches.driven k 0 rfl with ⟨l, -, -, enough⟩
    exact absurd enough (Nat.not_lt_zero _)
  | succ steps ih =>
    rw [LocalNode.driveSteps]
    cases entered : n.lookups.lookup k with
    | none =>
      intro once
      rcases (balance once).searches.driven k _ rfl with ⟨l, found, -, -⟩
      exact absurd found (not_lookup? entered)
    | some active =>
      have found := lookup?_of_entered entered
      have hResult : n.reused = false → Lookup.StepResult active.lookup active.lookup.step :=
        fun once => Lookup.step_result ((balance once).searches.linked k _ found).sorted
      dsimp only
      generalize active.lookup.step = result at hResult ⊢
      rcases result with ⟨step, next⟩
      cases step with
      | wait =>
        intro once
        cases hResult once with
        | wait pending => exact (balance once).lookupWaits found pending
      | done =>
        intro once
        cases hResult once with
        | done ended isDone pending sorted =>
          rcases (balance once).searches.driven k _ rfl with ⟨l, found_too, open_, -⟩
          rw [found] at found_too
          rw [← Option.some.inj found_too] at open_
          have hIdle := ended.resolve_left (Bool.eq_false_iff.mp open_)
          exact (balance once).lookupDone found hIdle isDone pending sorted
      | query targets =>
        refine ih (InBalance.queryTargets ?_ (isSearch_query _ _))
        intro once
        cases hResult once with
        | query isDone pending sorted less =>
          exact (balance once).lookupRound found isDone pending sorted less

/-- A lookup is given steps enough, whatever it was promised. -/
theorem InBalance.driveLookup
    (balance : n.reused = false → ∃ steps,
      Balanced stale [] (.lookup k steps) { w with ahead := w.ahead + 1 } n.books) :
    InBalance stale [] .nothing w (n.driveLookup env k) := by
  unfold LocalNode.driveLookup
  cases entered : n.lookups.lookup k with
  | none =>
    intro once
    rcases balance once with ⟨steps, hBalanced⟩
    rcases hBalanced.searches.driven k _ rfl with ⟨l, found, -, -⟩
    exact absurd found (not_lookup? entered)
  | some active =>
    have found := lookup?_of_entered entered
    apply InBalance.driveSteps
    intro once
    rcases balance once with ⟨steps, hBalanced⟩
    exact ⟨hBalanced.ledger, hBalanced.searches.restep found active.lookup.budget_lt,
      hBalanced.announcing, hBalanced.numbered⟩

/-! ## Starting lookups -/

theorem Balanced.launch {active : ActiveLookup} (balanced : Balanced stale [] .nothing w b)
    (isDone : active.lookup.isDone = false) (pending : active.lookup.pending = [])
    (sorted : active.lookup.Sorted) :
    Balanced stale [] (.lookup ⟨b.lookupCount⟩ (active.lookup.budget + 1)) w (b.launch active) where
  ledger := balanced.ledger
  searches := by
    refine balanced.searches.launch (lookup?_eq_none balanced.numbered.absent) ?_ isDone pending
      sorted (updates_launch balanced.numbered active)
    exact fun member => Nat.lt_irrefl _ (balanced.numbered.completed_below _ member)
  announcing := balanced.announcing
  numbered := balanced.numbered.launch active

theorem InBalance.launch {active : ActiveLookup}
    (balance : InBalance stale [] .nothing { w with ahead := w.ahead + 1 } n)
    (isDone : active.lookup.isDone = false) (pending : active.lookup.pending = [])
    (sorted : active.lookup.Sorted) : InBalance stale [] .nothing w (n.launch env active) :=
  InBalance.driveLookup fun once => ⟨_, (balance once).launch isDone pending sorted⟩

theorem InBalance.startLookup {request : LookupRequest}
    (balance : InBalance stale [] .nothing { w with ahead := w.ahead + 1 } n) :
    InBalance stale [] .nothing w (n.startLookup env request) := by
  have hIdle := Lookup.start_idle request.target request.kind request.announce
  exact balance.launch (hIdle _ _ _ _).2 (hIdle _ _ _ _).1 (.start ..)

theorem InBalance.startLookups {requests : List LookupRequest}
    (balance : InBalance stale [] .nothing { w with ahead := w.ahead + requests.length } n) :
    InBalance stale [] .nothing w (requests.foldl (LocalNode.startLookup env) n) := by
  induction requests generalizing n with
  | nil => exact balance
  | cons request requests ih =>
    apply ih
    exact InBalance.startLookup balance

/-- The lookups that were kept waiting count as those that are ahead. -/
theorem InBalance.startQueued (balance : InBalance stale [] .nothing w n) :
    InBalance stale [] .nothing w (n.startQueued env) := by
  apply InBalance.startLookups
  intro once
  have hBalanced := balance once
  refine ⟨hBalanced.ledger, hBalanced.searches, hBalanced.announcing, ?_⟩
  have hNumbered := hBalanced.numbered
  refine { hNumbered with work := ?_ }
  intro limit limited
  have hWork : n.completed.length + n.queued.length + w.ahead ≤ limit :=
    hNumbered.work limit limited
  change n.completed.length + 0 + (w.ahead + n.queued.length) ≤ limit
  omega

theorem InBalance.requestLookup {request : LookupRequest}
    (balance : InBalance stale [] .nothing {} n) :
    InBalance stale [] .nothing {} (n.requestLookup env request) := by
  unfold LocalNode.requestLookup
  split
  · intro once
    have hBalanced := balance once
    exact ⟨hBalanced.ledger, hBalanced.searches, hBalanced.announcing,
      { hBalanced.numbered with work := nofun }⟩
  · exact InBalance.startLookup (w := {}) balance.unlimited

/-! ## Answers -/

theorem Balanced.lookupSettled {change : Lookup → Lookup}
    (balanced : Balanced stale [t] .nothing w b) (found : b.lookup? k = some l)
    (owner : t.owner = .lookup k) (settled : Lookup.Settled t.id l (change l)) :
    Balanced stale [] (.lookup k ((change l).budget + 1)) w (b.changeLookup k change) where
  ledger := balanced.ledger.settle
  searches := balanced.searches.settled found owner owed_loose
    (fun _ owes same => balanced.ledger.eq_of_id owes owed_loose same)
    (fun _ => owed_settled balanced.ledger) settled (updates_changeLookup found _)
  announcing := by
    apply balanced.announcing.drop fun _ => owed_settled balanced.ledger
    rw [owner]
    exact nofun
  numbered := balanced.numbered.changeLookup _

/-- The lookup that a query was sent for is there, and waits for it. -/
theorem Balanced.lookup_asked (balanced : Balanced stale [t] .nothing w b)
    (owner : t.owner = .lookup k) : ∃ l, b.lookup? k = some l ∧ l.isPending t.id = true := by
  rcases (balanced.searches.owner t k owed_loose owner).1 with ⟨l, found⟩
  have hLinked := balanced.searches.linked k l found
  exact ⟨l, found, (hLinked.asked t.id).mpr ⟨t, owed_loose, owner, rfl⟩⟩

theorem InBalance.lookupFailure (balance : InBalance stale [t] .nothing {} n)
    (owner : t.owner = .lookup k) :
    InBalance stale [] .nothing {} ((n.modifyLookup k (·.onFailure t.id)).driveLookup env k) := by
  apply InBalance.driveLookup (w := {})
  intro once
  have hBalanced : Balanced stale [t] .nothing { ahead := 1 } n.books := balance.unlimited once
  rcases hBalanced.lookup_asked owner with ⟨l, found, -⟩
  rw [books_modifyLookup]
  exact ⟨_, hBalanced.lookupSettled found owner Lookup.settled_onFailure⟩

theorem InBalance.lookupResponse {sender : Contact} {response : Response} {nodes : List Contact}
    (balance : InBalance stale [t] .nothing {} n) (owner : t.owner = .lookup k) :
    InBalance stale [] .nothing {} (n.lookupResponse env k t.id sender response nodes) := by
  unfold LocalNode.lookupResponse
  cases entered : n.lookups.lookup k with
  | none =>
    intro once
    rcases (balance once).lookup_asked owner with ⟨l, found, -⟩
    exact absurd found (not_lookup? entered)
  | some active =>
    have found := lookup?_of_entered entered
    dsimp only
    generalize hNext : (active.lookup.onResponse t.id sender response nodes).2 = next
    have hBooks := foldl_keeps books (books_reportPeer next.target active.sink)
      (n.modifyLookup k fun _ => next) (active.lookup.onResponse t.id sender response nodes).1
    apply InBalance.driveLookup (w := {})
    intro reported
    have once : n.reused = false := (congrArg Books.reused hBooks).symm.trans reported
    have hBalanced : Balanced stale [t] .nothing { ahead := 1 } n.books := balance.unlimited once
    rcases hBalanced.lookup_asked owner with ⟨l, found_too, asked⟩
    rw [found] at found_too
    rw [← Option.some.inj found_too] at asked
    rw [hBooks, books_modifyLookup, ← hNext]
    exact ⟨_, hBalanced.lookupSettled found owner (Lookup.settled_onResponse asked)⟩

end LocalNode
end Kademlia
