import Kademlia.LocalNode.Searching
import Kademlia.Proofs.Lookup

namespace Kademlia
namespace LocalNode

/-!
The lookups in progress and the queries that are owed an answer.  A lookup has in flight the queries
that were sent for it and no others.  It has some, unless it is just being driven on, or is done and
waits to be wrapped up.

The lookups are seen here as a table from numbers, so that it does not matter how they are kept.
-/

/-- The queries in flight for a lookup are those that are owed to it. -/
structure LookupLinked (owed : Transaction → Prop) (k : LookupId) (l : Lookup) : Prop where
  sorted : l.Sorted
  idle : l.isDone = true → l.pending = []
  asked : ∀ id, l.isPending id = true ↔ ∃ t, owed t ∧ t.owner = .lookup k ∧ t.id = id

/-- A query of a lookup asks for nodes or for peers. -/
def IsSearch (query : Query) : Prop :=
  query.method? = some .findNode ∨ query.method? = some .getPeers

instance : DecidablePred IsSearch :=
  fun _ => inferInstanceAs (Decidable (_ ∨ _))

/-- The lookups in progress.  One of them may be about to take a number of steps (`driven`), which
are enough for the rounds that it can begin. -/
structure Searches (owed : Transaction → Prop) (driven : Option (LookupId × Nat))
    (find : LookupId → Option Lookup) (completed : List LookupId) : Prop where
  owner : ∀ t k, owed t → t.owner = .lookup k → (∃ l, find k = some l) ∧ IsSearch t.query
  linked : ∀ k l, find k = some l → LookupLinked owed k l
  busy : ∀ k l, find k = some l →
    (∃ steps, driven = some (k, steps)) ∨ l.pending ≠ [] ∨ l.isDone = true ∧ k ∈ completed
  driven : ∀ k steps, driven = some (k, steps) →
    ∃ l, find k = some l ∧ l.isDone = false ∧ l.budget < steps
  done : ∀ k ∈ completed, ∀ l, find k = some l → l.isDone = true

/-- A table with another entry under one key. -/
def Updates {α : Type} (find : LookupId → Option α) (k : LookupId) (entry : Option α)
    (after : LookupId → Option α) : Prop :=
  ∀ other, after other = if other = k then entry else find other

theorem Updates.self {α : Type} {find after : LookupId → Option α} {k : LookupId}
    {entry : Option α} (updates : Updates find k entry after) : after k = entry := by
  rw [updates k, if_pos rfl]

theorem Updates.other {α : Type} {find after : LookupId → Option α} {k other : LookupId}
    {entry : Option α} (updates : Updates find k entry after) (different : other ≠ k) :
    after other = find other := by
  rw [updates other, if_neg different]

theorem Updates.refl {α : Type} {find : LookupId → Option α} {k : LookupId} {entry : Option α}
    (found : find k = entry) : Updates find k entry find := by
  intro other
  split
  next here => rw [here, found]
  next => rfl

variable {owed later : Transaction → Prop} {driven : Option (LookupId × Nat)} {k : LookupId}
  {find after : LookupId → Option Lookup} {completed : List LookupId} {t : Transaction}
  {l next : Lookup} {steps : Nat} {nodeId : Option NodeId}

/-- That a query is owed from now on concerns only the one that it is sent for. -/
theorem iff_of_add {other : Transaction} (owes : ∀ other, later other ↔ owed other ∨ other = t)
    (different : other.owner ≠ t.owner) : later other ↔ owed other := by
  rw [owes]
  refine or_iff_left ?_
  rintro rfl
  exact different rfl

/-- That a query is owed no longer concerns only the one that it was sent for. -/
theorem iff_of_drop {other : Transaction} (owes : ∀ other, later other ↔ owed other ∧ other ≠ t)
    (different : other.owner ≠ t.owner) : later other ↔ owed other := by
  rw [owes]
  refine and_iff_left ?_
  rintro rfl
  exact different rfl

theorem LookupLinked.congr (linked : LookupLinked owed k l)
    (same : ∀ t, t.owner = .lookup k → (later t ↔ owed t)) : LookupLinked later k l := by
  refine ⟨linked.sorted, linked.idle, fun id => ?_⟩
  rw [linked.asked]
  constructor
  · rintro ⟨t, owes, owner, number⟩
    exact ⟨t, (same t owner).mpr owes, owner, number⟩
  · rintro ⟨t, owes, owner, number⟩
    exact ⟨t, (same t owner).mp owes, owner, number⟩

namespace Searches

/-- Only the queries of lookups matter. -/
theorem congr (searches : Searches owed driven find completed)
    (same : ∀ t k, t.owner = .lookup k → (later t ↔ owed t)) :
    Searches later driven find completed where
  owner := fun t k owes owner => searches.owner t k ((same t k owner).mp owes) owner
  linked := fun k l found => (searches.linked k l found).congr fun t owner => same t k owner
  busy := searches.busy
  driven := searches.driven
  done := searches.done

/-- A query is sent for somebody else. -/
theorem add (searches : Searches owed driven find completed)
    (owes : ∀ other, later other ↔ owed other ∨ other = t) (stranger : ∀ k, t.owner ≠ .lookup k) :
    Searches later driven find completed := by
  apply searches.congr
  intro other k belongs
  apply iff_of_add owes
  rw [belongs]
  exact (stranger k).symm

/-- A query of somebody else is settled. -/
theorem drop (searches : Searches owed driven find completed)
    (owes : ∀ other, later other ↔ owed other ∧ other ≠ t) (stranger : ∀ k, t.owner ≠ .lookup k) :
    Searches later driven find completed := by
  apply searches.congr
  intro other k belongs
  apply iff_of_drop owes
  rw [belongs]
  exact (stranger k).symm

/-- The lookup that is driven on is not done, and has steps enough. -/
theorem driven_of_found (searches : Searches owed (some (k, steps)) find completed)
    (found : find k = some l) : l.isDone = false ∧ l.budget < steps := by
  rcases searches.driven k steps rfl with ⟨same, found_too, driven⟩
  rw [found] at found_too
  rcases Option.some.inj found_too with rfl
  exact driven

/-- One lookup changes, and only its own queries with it.  It is the only one that was or is driven
on. -/
theorem update {filed : List LookupId} (before again : Option Nat)
    (searches : Searches owed (before.map (k, ·)) find completed)
    (updates : Updates find k (some next) after)
    (owner : ∀ t, later t → t.owner = .lookup k → IsSearch t.query)
    (same : ∀ t other, t.owner = .lookup other → other ≠ k → (later t ↔ owed t))
    (same_filed : ∀ other, other ≠ k → (other ∈ filed ↔ other ∈ completed))
    (linked : LookupLinked later k next)
    (busy : again.isSome = true ∨ next.pending ≠ [] ∨ next.isDone = true ∧ k ∈ filed)
    (drives : ∀ steps, again = some steps → next.isDone = false ∧ next.budget < steps)
    (done : k ∈ filed → next.isDone = true) :
    Searches later (again.map (k, ·)) after filed := by
  refine ⟨?_, ?_, ?_, ?_, ?_⟩
  · intro t other owes belongs
    by_cases here : other = k
    · rw [here] at belongs ⊢
      exact ⟨⟨next, updates.self⟩, owner t owes belongs⟩
    · rw [updates.other here]
      exact searches.owner t other ((same t other belongs here).mp owes) belongs
  · intro other l found
    by_cases here : other = k
    · rw [here, updates.self] at found
      rw [here, ← Option.some.inj found]
      exact linked
    · rw [updates.other here] at found
      exact (searches.linked other l found).congr fun t belongs => same t other belongs here
  · intro other l found
    by_cases here : other = k
    · rw [here, updates.self] at found
      rw [here, ← Option.some.inj found]
      refine busy.imp_left fun isSome => ?_
      rcases Option.isSome_iff_exists.mp isSome with ⟨steps, rfl⟩
      exact ⟨steps, rfl⟩
    · rw [updates.other here] at found
      rcases searches.busy other l found with ⟨steps, drives⟩ | waits
      · rcases Option.map_eq_some_iff.mp drives with ⟨steps, -, same⟩
        exact absurd (Prod.mk.inj same).1.symm here
      · exact .inr (waits.imp_right (And.imp_right (same_filed other here).mpr))
  · intro other steps drives_other
    rcases Option.map_eq_some_iff.mp drives_other with ⟨steps, given, same⟩
    cases same
    exact ⟨next, updates.self, drives steps given⟩
  · intro other member l found
    by_cases here : other = k
    · rw [here, updates.self] at found
      rw [here] at member
      rw [← Option.some.inj found]
      exact done member
    · rw [updates.other here] at found
      exact searches.done other ((same_filed other here).mp member) l found

theorem start (none_owed : ∀ t k, owed t → t.owner ≠ .lookup k)
    (empty : ∀ k, find k = none) : Searches owed none find [] where
  owner := fun t k owes owner => absurd owner (none_owed t k owes)
  linked := fun k l found => absurd found (by rw [empty]; exact nofun)
  busy := fun k l found => absurd found (by rw [empty]; exact nofun)
  driven := nofun
  done := nofun

/-- A query of the lookup that is driven on gets out. -/
theorem sent (searches : Searches owed (some (k, steps)) find completed) (found : find k = some l)
    (owner : t.owner = .lookup k) (isSearch : IsSearch t.query)
    (owes : ∀ other, later other ↔ owed other ∨ other = t)
    (updates : Updates find k (some (l.sent t.id nodeId)) after) :
    Searches later (some (k, steps)) after completed := by
  have hLinked := searches.linked k l found
  rcases searches.driven_of_found found with ⟨open_, enough⟩
  refine searches.update (some steps) (some steps) updates ?_ ?_ (fun _ _ => .rfl) ⟨?_, ?_, ?_⟩
    (.inl rfl) ?_ (searches.done k · l found)
  · intro other owed_later belongs
    rcases (owes other).mp owed_later with before | rfl
    · exact (searches.owner other k before belongs).2
    · exact isSearch
  · intro other key belongs different
    apply iff_of_add owes
    rw [belongs, owner]
    exact fun same => different (Owner.lookup.inj same)
  · exact hLinked.sorted.of_eq rfl rfl
  · exact fun done => absurd (open_.symm.trans done) nofun
  · intro id
    rw [Lookup.isPending_sent, hLinked.asked]
    constructor
    · rintro (rfl | ⟨other, before, belongs, number⟩)
      · exact ⟨t, (owes t).mpr (.inr rfl), owner, rfl⟩
      · exact ⟨other, (owes other).mpr (.inl before), belongs, number⟩
    · rintro ⟨other, owed_later, belongs, number⟩
      rcases (owes other).mp owed_later with before | rfl
      · exact .inr ⟨other, before, belongs, number⟩
      · exact .inl number.symm
  · intro others same
    cases same
    exact ⟨open_, enough⟩

/-- The lookup that is driven on changes, and nothing is sent or settled. -/
theorem change {filed : List LookupId} (again : Option Nat)
    (searches : Searches owed (some (k, steps)) find completed) (found : find k = some l)
    (updates : Updates find k (some next) after) (pending : next.pending = l.pending)
    (sorted : next.Sorted) (idle : next.isDone = true → next.pending = [])
    (same_filed : ∀ other, other ≠ k → (other ∈ filed ↔ other ∈ completed))
    (busy : again.isSome = true ∨ next.pending ≠ [] ∨ next.isDone = true ∧ k ∈ filed)
    (drives : ∀ steps, again = some steps → next.isDone = false ∧ next.budget < steps)
    (done : k ∈ filed → next.isDone = true) :
    Searches owed (again.map (k, ·)) after filed := by
  refine searches.update (some steps) again updates ?_ (fun _ _ _ _ => .rfl) same_filed
    ⟨sorted, idle, ?_⟩ busy drives done
  · exact fun other owes belongs => (searches.owner other k owes belongs).2
  · unfold Lookup.isPending
    rw [pending]
    exact (searches.linked k l found).asked

/-- A query of the lookup that is driven on does not get out. -/
theorem sendFailed (searches : Searches owed (some (k, steps)) find completed)
    (found : find k = some l) (updates : Updates find k (some (l.sendFailed nodeId)) after) :
    Searches owed (some (k, steps)) after completed := by
  have hLinked := searches.linked k l found
  have hPending : (l.sendFailed nodeId).pending = l.pending := by
    cases nodeId <;> rfl
  have hDone : (l.sendFailed nodeId).isDone = l.isDone := by
    cases nodeId <;> rfl
  have hSorted : (l.sendFailed nodeId).Sorted := by
    cases nodeId with
    | none => exact hLinked.sorted
    | some id => exact hLinked.sorted.setState
  have hBudget : (l.sendFailed nodeId).budget ≤ l.budget := by
    cases nodeId with
    | none => exact Nat.le_refl _
    | some id => exact Lookup.budget_setState_le nofun
  rcases searches.driven_of_found found with ⟨open_, enough⟩
  refine searches.change (some steps) found updates hPending hSorted ?_ (fun _ _ => .rfl)
    (.inl rfl) ?_ ?_
  · rw [hPending, hDone]
    exact hLinked.idle
  · intro others same
    cases same
    exact ⟨hDone.trans open_, Nat.lt_of_le_of_lt hBudget enough⟩
  · intro member
    rw [hDone]
    exact searches.done k member l found

/-- A query of a lookup is settled, and the lookup is to be driven on. -/
theorem settled (searches : Searches owed none find completed) (found : find k = some l)
    (owner : t.owner = .lookup k) (owed_now : owed t)
    (distinct : ∀ other, owed other → other.id = t.id → other = t)
    (owes : ∀ other, later other ↔ owed other ∧ other ≠ t) (settled : Lookup.Settled t.id l next)
    (updates : Updates find k (some next) after) :
    Searches later (some (k, next.budget + 1)) after completed := by
  have hLinked := searches.linked k l found
  have hPending := (hLinked.asked t.id).mpr ⟨t, owed_now, owner, rfl⟩
  have hOpen : l.isDone = false := by
    apply Bool.eq_false_iff.mpr
    intro done
    rcases Lookup.isPending_iff.mp hPending with ⟨entry, member, -⟩
    rw [hLinked.idle done] at member
    cases member
  refine searches.update none (some (next.budget + 1)) updates ?_ ?_ (fun _ _ => .rfl) ⟨?_, ?_, ?_⟩
    (.inl rfl) ?_ ?_
  · exact fun other owes_later belongs =>
      (searches.owner other k ((owes other).mp owes_later).1 belongs).2
  · intro other key belongs different
    apply iff_of_drop owes
    rw [belongs, owner]
    exact fun same => different (Owner.lookup.inj same)
  · exact settled.sorted hLinked.sorted
  · rw [settled.isDone, hOpen]
    exact nofun
  · intro id
    rw [settled.isPending, hLinked.asked]
    constructor
    · rintro ⟨different, other, before, belongs, rfl⟩
      refine ⟨other, (owes other).mpr ⟨before, ?_⟩, belongs, rfl⟩
      rintro rfl
      exact different rfl
    · rintro ⟨other, owes_later, belongs, rfl⟩
      rcases (owes other).mp owes_later with ⟨before, different⟩
      exact ⟨fun same => different (distinct other before same), other, before, belongs, rfl⟩
  · intro others same
    cases same
    exact ⟨settled.isDone.trans hOpen, Nat.lt_succ_self _⟩
  · intro member
    rw [settled.isDone]
    exact searches.done k member l found

/-- The lookup that is driven on waits for answers. -/
theorem waits (searches : Searches owed (some (k, steps)) find completed)
    (found : find k = some l) (pending : l.pending ≠ []) (updates : Updates find k (some l) after) :
    Searches owed none after completed := by
  have hLinked := searches.linked k l found
  exact searches.change none found updates rfl hLinked.sorted hLinked.idle (fun _ _ => .rfl)
    (.inr (.inl pending)) nofun (searches.done k · l found)

/-- The lookup that is driven on begins a round. -/
theorem round (searches : Searches owed (some (k, steps + 1)) find completed)
    (found : find k = some l) (isDone : next.isDone = l.isDone)
    (pending : next.pending = l.pending) (sorted : next.Sorted) (less : next.budget < l.budget)
    (updates : Updates find k (some next) after) :
    Searches owed (some (k, steps)) after completed := by
  rcases searches.driven_of_found found with ⟨open_, enough⟩
  refine searches.change (some steps) found updates pending sorted ?_ (fun _ _ => .rfl)
    (.inl rfl) ?_ ?_
  · rw [pending, isDone]
    exact (searches.linked k l found).idle
  · intro others same
    cases same
    exact ⟨isDone.trans open_, by omega⟩
  · intro member
    rw [isDone]
    exact searches.done k member l found

/-- The lookup that is driven on is done. -/
theorem finish (searches : Searches owed (some (k, steps)) find completed)
    (found : find k = some l) (idle : l.pending = []) (isDone : next.isDone = true)
    (pending : next.pending = l.pending) (sorted : next.Sorted)
    (updates : Updates find k (some next) after) : Searches owed none after (k :: completed) := by
  refine searches.change none found updates pending sorted (fun _ => pending.trans idle) ?_ ?_
    nofun (fun _ => isDone)
  · exact fun other different => List.mem_cons.trans (or_iff_right different)
  · exact .inr (.inr ⟨isDone, List.mem_cons_self⟩)

/-- The steps that a lookup may take can be counted anew. -/
theorem restep {more : Nat} (searches : Searches owed (some (k, steps)) find completed)
    (found : find k = some l) (enough : l.budget < more) :
    Searches owed (some (k, more)) find completed := by
  have hLinked := searches.linked k l found
  refine searches.change (some more) found (.refl found) rfl hLinked.sorted hLinked.idle
    (fun _ _ => .rfl) (.inl rfl) ?_ (searches.done k · l found)
  intro others same
  cases same
  exact ⟨(searches.driven_of_found found).1, enough⟩

/-- A lookup is added under a new number. -/
theorem launch (searches : Searches owed none find completed) (absent : find k = none)
    (fresh : k ∉ completed) (isDone : l.isDone = false) (pending : l.pending = [])
    (sorted : l.Sorted) (updates : Updates find k (some l) after) :
    Searches owed (some (k, l.budget + 1)) after completed := by
  have hNobody : ∀ t, owed t → t.owner ≠ .lookup k := by
    intro t owes owner
    rcases (searches.owner t k owes owner).1 with ⟨other, found⟩
    rw [absent] at found
    cases found
  refine searches.update none (some (l.budget + 1)) updates ?_ (fun _ _ _ _ => .rfl)
    (fun _ _ => .rfl) ⟨sorted, fun _ => pending, ?_⟩ (.inl rfl) ?_ ?_
  · exact fun t owes owner => absurd owner (hNobody t owes)
  · refine fun id => iff_of_false ?_ ?_
    · intro asked
      rcases Lookup.isPending_iff.mp asked with ⟨entry, member, -⟩
      rw [pending] at member
      cases member
    · rintro ⟨t, owes, owner, -⟩
      exact hNobody t owes owner
  · intro others same
    cases same
    exact ⟨isDone, Nat.lt_succ_self _⟩
  · exact fun member => absurd member fresh

/-- A lookup that is done is taken out. -/
theorem remove (searches : Searches owed none find (k :: completed))
    (updates : Updates find k none after) : Searches owed none after completed := by
  have hNobody : ∀ t, owed t → t.owner ≠ .lookup k := by
    intro t owes owner
    rcases (searches.owner t k owes owner).1 with ⟨l, found⟩
    have hLinked := searches.linked k l found
    rcases Lookup.isPending_iff.mp ((hLinked.asked t.id).mpr ⟨t, owes, owner, rfl⟩) with
      ⟨entry, member, -⟩
    rw [hLinked.idle (searches.done k List.mem_cons_self l found)] at member
    cases member
  have hBefore : ∀ other l, after other = some l → other ≠ k ∧ find other = some l := by
    intro other l found
    by_cases here : other = k
    · rw [here, updates.self] at found
      cases found
    · rw [updates.other here] at found
      exact ⟨here, found⟩
  refine ⟨?_, ?_, ?_, nofun, ?_⟩
  · intro t other owes owner
    have hOther : other ≠ k := by
      rintro rfl
      exact hNobody t owes owner
    rw [updates.other hOther]
    exact searches.owner t other owes owner
  · intro other l found
    exact searches.linked other l (hBefore other l found).2
  · intro other l found
    rcases hBefore other l found with ⟨different, before⟩
    rcases searches.busy other l before with ⟨steps, drives⟩ | waits | ⟨done, member⟩
    · cases drives
    · exact .inr (.inl waits)
    · rcases List.mem_cons.mp member with same | member
      · exact absurd same different
      · exact .inr (.inr ⟨done, member⟩)
  · intro other member l found
    exact searches.done other (List.mem_cons_of_mem _ member) l (hBefore other l found).2

end Searches
end LocalNode
end Kademlia
