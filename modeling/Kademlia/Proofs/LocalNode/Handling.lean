import Kademlia.LocalNode.Step
import Kademlia.Proofs.LocalNode.Hearing
import Kademlia.Proofs.LocalNode.Telling

namespace Kademlia
namespace LocalNode

/-!
Datagrams and time-outs keep the books in balance.  Either takes out a query and its time-out at
once, and then those who sent the query are told.
-/

variable {stale loose gone open_ : List Transaction} {driven : Driven} {w : Wrapping}
  {n m : LocalNode} {b : Books} {k : LookupId} {env : Surroundings} {t : Transaction} {task : Task}
  {timer : Timer} {waiting : List Transaction} {delay : Duration} {sender : Address}

/-! ## The timer -/

/-- Queries are moved about, but none is forgotten. -/
theorem Balanced.refile (balanced : Balanced stale loose driven w b)
    (ledger : Ledger gone open_ waiting timer b.timeout)
    (perm : (waiting ++ gone ++ open_).Perm (b.waiting ++ stale ++ loose)) :
    Balanced gone open_ driven w { b with waiting, timer } where
  ledger := ledger
  searches := balanced.searches.congr fun _ _ _ => perm.mem_iff
  announcing := balanced.announcing.congr fun _ _ _ => perm.mem_iff
  numbered := balanced.numbered.congr rfl rfl rfl rfl rfl

theorem InBalance.schedule (balance : InBalance stale loose driven w n)
    (another : ∀ id, task ≠ .queryTimeout id) :
    InBalance stale loose driven w
      { n with timer := n.timer.scheduleIn env.now delay task } := by
  intro once
  have hBalanced := balance once
  exact hBalanced.refile (hBalanced.ledger.schedule another) (.refl _)

theorem InBalance.pop (balance : InBalance stale loose driven w n)
    (popped : n.timer.popDue? env.now = some (task, timer))
    (another : ∀ id, task ≠ .queryTimeout id) :
    InBalance stale loose driven w { n with timer } := by
  intro once
  have hBalanced := balance once
  exact hBalanced.refile (hBalanced.ledger.pop popped another) (.refl _)

/-- A query is taken out with its time-out. -/
theorem Balanced.takeOut (balanced : Balanced stale [] driven w b) (waits : t ∈ b.waiting)
    (ledger : Ledger stale [t] (b.waiting.filter (·.id ≠ t.id)) timer b.timeout) :
    Balanced stale [t] driven w
      { b with waiting := b.waiting.filter (·.id ≠ t.id), timer } := by
  apply balanced.refile ledger
  rw [List.append_nil]
  exact (List.perm_append_singleton _ _).trans (balanced.ledger.perm_takeOut waits).symm

/-! ## Queries that are settled -/

/-- An announcement knows whom it asked. -/
theorem Balanced.announce_asked (balanced : Balanced stale [t] driven w b)
    (owner : t.owner = .announce k) (other : NodeId) :
    IsTo t ⟨t.nodeId.getD other, t.destination.address⟩ := by
  rcases (balanced.announcing.owner t k owed_loose owner).1 with ⟨a, found⟩
  rcases (balanced.announcing.linked k a found).asked t owed_loose owner with
    ⟨target, -, -, isTo⟩
  refine ⟨?_, rfl⟩
  rw [isTo.1]
  rfl

/-- Nobody waits for a query that its owner would not have sent. -/
theorem Balanced.strangeSettled (balanced : Balanced stale [t] driven w b)
    (lookup : ∀ k, t.owner = .lookup k → ¬ IsSearch t.query)
    (announce : ∀ k, t.owner = .announce k → t.query.method? ≠ some .announcePeer) :
    Balanced stale [] driven w b := by
  refine balanced.freeSettled ⟨?_, ?_⟩
  · intro k owner
    exact lookup k owner (balanced.searches.owner t k owed_loose owner).2
  · intro k owner
    exact announce k owner (balanced.announcing.owner t k owed_loose owner).2

theorem InBalance.queryFailed {timedOut : Bool} (balance : InBalance stale [t] .nothing {} n) :
    InBalance stale [] .nothing {} (n.queryFailed env t timedOut) := by
  unfold LocalNode.queryFailed
  have hNoted : InBalance stale [t] .nothing {} (if timedOut ∧ t.destination.link = 0 then
      { n with table := n.table.failedAddress t.destination.address } else n) := by
    split
    · exact balance.congr rfl
    · exact balance
  generalize (if timedOut ∧ t.destination.link = 0 then
    { n with table := n.table.failedAddress t.destination.address } else n) = m at hNoted ⊢
  dsimp only
  split
  next k owner => exact hNoted.lookupFailure owner
  next k owner =>
    split
    next nodeId asked => exact hNoted.announceReply owner fun _ => ⟨asked, rfl⟩
    next unknown =>
      intro once
      have hAsked := (hNoted once).announce_asked owner m.id
      exact absurd (unknown.symm.trans hAsked.1) nofun
  next owner =>
    intro once
    apply (hNoted once).freeSettled
    rw [owner]
    exact ⟨nofun, nofun⟩
  next owner =>
    intro once
    apply (hNoted once).freeSettled
    rw [owner]
    exact ⟨nofun, nofun⟩

/-- The owner of a query is told, if it is one that its owner sends. -/
theorem InBalance.handleResponse {message : Message} {response : Response}
    (balance : InBalance [] [t] .nothing {} n) :
    InBalance [] [] .nothing {} (n.handleResponse env sender message response t) := by
  unfold LocalNode.handleResponse
  dsimp only
  generalize (List.filter _ _) = nodes
  generalize hTold : ({ n with table := _ } : LocalNode) = m
  have hNoted : InBalance [] [t] .nothing {} m := by
    rw [← hTold]
    exact balance.congr rfl
  split
  next method =>
    intro once
    refine (hNoted once).strangeSettled ?_ ?_
    · rintro k - (search | search)
      · rw [method] at search
        cases search
      · rw [method] at search
        cases search
    · intro k _ announce
      rw [method] at announce
      cases announce
  next method owner => exact hNoted.lookupResponse owner
  next method owner => exact hNoted.lookupResponse owner
  next method owner =>
    exact hNoted.announceReply owner fun once => (hNoted once).announce_asked owner _
  next strange_find strange_get strange_announce =>
    intro once
    refine (hNoted once).strangeSettled ?_ ?_
    · rintro k owner (search | search)
      · exact strange_find k search owner
      · exact strange_get k search owner
    · intro k owner announce
      exact strange_announce k announce owner

/-! ## Datagrams -/

theorem books_handleQuery (n : LocalNode) (sender : Address) (message : Message) (query : Query) :
    (n.handleQuery env sender message query).books = n.books := by
  rcases handleQuery_cases env n sender message query with
    ⟨table, _, body, -, ⟨tokens, store, notices, rfl⟩, same⟩
  rw [same, send, books_emit]
  rfl

/-- A query is put back where it was. -/
theorem InBalance.putBack (balance : InBalance [] [] .nothing w n)
    (found : n.transactions.get? t.id = some t) :
    InBalance [] [] .nothing w
      { n with transactions := (n.transactions.erase t.id).record t } := by
  intro once
  have hBalanced := balance once
  have hPerm := Transactions.perm_record_erase hBalanced.ledger.nodup found
  refine hBalanced.refile (hBalanced.ledger.perm hPerm) ?_
  rw [List.append_nil, List.append_nil, List.append_nil, List.append_nil]
  exact hPerm

theorem InBalance.takeOut (balance : InBalance [] [] .nothing w n)
    (found : n.transactions.get? t.id = some t) :
    InBalance [] [t] .nothing w { n with
      transactions := n.transactions.erase t.id
      timer := (n.timer.cancel t.id).2 } := by
  have hWaits := (Transactions.mem_of_get? found).1
  intro once
  have hBalanced := balance once
  exact hBalanced.takeOut hWaits (hBalanced.ledger.answer hWaits)

theorem InBalance.handleMessage {message : Message} (balance : InBalance [] [] .nothing {} n) :
    InBalance [] [] .nothing {} (n.handleMessage env sender message) := by
  have hTaken := takeTransaction_cases n sender message.transaction
  unfold LocalNode.handleMessage
  generalize n.takeTransaction sender message.transaction = taken at hTaken ⊢
  split
  next =>
    split
    · exact balance
    · exact balance.congr (books_handleQuery ..)
  next =>
    cases hTaken with
    | unknown => exact balance
    | elsewhere found => exact balance.putBack found
    | own found => exact (balance.takeOut found).handleResponse
  next =>
    cases hTaken with
    | unknown => exact balance
    | elsewhere found => exact balance.putBack found
    | own found => exact (balance.takeOut found).queryFailed
  next => exact balance

theorem InBalance.handleDatagram {data : Bytes} (balance : InBalance [] [] .nothing {} n) :
    InBalance [] [] .nothing {} (n.handleDatagram env sender data) := by
  unfold LocalNode.handleDatagram
  split
  next => exact balance.handleMessage
  next =>
    split
    · exact balance
    · exact balance.congr rfl
  next => exact balance

/-! ## Time-outs -/

/-- When the time-out of a query comes up, the query has waited long enough. -/
theorem InBalance.handleQueryTimeout {id : TransactionId} (balance : InBalance [] [] .nothing {} n)
    (popped : n.timer.popDue? env.now = some (.queryTimeout id, timer)) :
    InBalance [] [] .nothing {} ({ n with timer }.handleQueryTimeout env id) := by
  unfold LocalNode.handleQueryTimeout
  have hExpired : n.reused = false → ∃ t ∈ n.transactions.pending,
      n.transactions.expire env.now id n.settings.queryTimeout =
        (some t, n.transactions.erase t.id) ∧
      Ledger [] [t] (n.transactions.pending.filter (·.id ≠ t.id)) timer
        n.settings.queryTimeout := by
    intro once
    have hBalanced := balance once
    rcases hBalanced.ledger.popTimeout popped with ⟨t, waits, rfl, overdue, ledger⟩
    exact ⟨t, waits, Transactions.expire_overdue hBalanced.ledger.nodup waits overdue, ledger⟩
  split
  next t transactions expired =>
    apply InBalance.queryFailed
    intro once
    rcases hExpired once with ⟨other, waits, expired_too, ledger⟩
    rcases Prod.mk.inj (expired.symm.trans expired_too) with ⟨same, rfl⟩
    rcases Option.some.inj same with rfl
    exact (balance once).takeOut waits ledger
  next unexpired =>
    intro once
    rcases hExpired once with ⟨other, -, expired, -⟩
    exact absurd (Prod.mk.inj (unexpired.symm.trans expired)).1 nofun

end LocalNode
end Kademlia
