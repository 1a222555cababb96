import Kademlia.Proofs.Announce
import Kademlia.Proofs.LocalNode.Searches

namespace Kademlia
namespace LocalNode

/-!
The announcements in progress and the queries that are owed an answer.  Here a query is known by the
node that it was sent to: the nodes of an announcement that are to answer, and the queries that were
sent for it, correspond one to one.
-/

/-- Whether a query was sent to a node. -/
def IsTo (t : Transaction) (contact : Contact) : Prop :=
  t.nodeId = some contact.id ∧ t.destination.address = contact.address

theorem IsTo.unique {t : Transaction} {a b : Contact} (first : IsTo t a) (second : IsTo t b) :
    a = b := by
  rcases a with ⟨id, address⟩
  rcases b with ⟨other, elsewhere⟩
  have hId : some id = some other := first.1.symm.trans second.1
  have hAddress : address = elsewhere := first.2.symm.trans second.2
  rw [Option.some.inj hId, hAddress]

/-- The nodes that are to answer are those that were sent a query. -/
structure AnnounceLinked (owed : Transaction → Prop) (k : LookupId) (a : Announce) : Prop where
  distinct : (a.targets.map (·.contact)).Nodup
  told : ∀ target ∈ a.targets, ∀ id, target.state = .pending id →
    ∃ t, owed t ∧ t.owner = .announce k ∧ t.id = id ∧ IsTo t target.contact
  asked : ∀ t, owed t → t.owner = .announce k →
    ∃ target ∈ a.targets, target.state = .pending t.id ∧ IsTo t target.contact

/-- The nodes that were chosen and not told yet are those of the list. -/
structure Picked (a : Announce) (picked : List Contact) : Prop where
  distinct : picked.Nodup
  known : ∀ contact ∈ picked, ∃ target ∈ a.targets, target.contact = contact ∧
    target.state = .picked
  only : ∀ target ∈ a.targets, target.state = .picked → target.contact ∈ picked

/-- An answer is to come, and every node that was chosen has been told. -/
def Waits (a : Announce) : Prop :=
  (∃ target ∈ a.targets, ∃ id, target.state = .pending id) ∧ Picked a []

/-- The announcements in progress.  One of them may be about to take a number of rounds, which are
enough for the nodes that are left, after the nodes that it has chosen have been told. -/
structure Announcing (owed : Transaction → Prop) (driven : Option (LookupId × Nat × List Contact))
    (find : LookupId → Option Announce) : Prop where
  owner : ∀ t k, owed t → t.owner = .announce k →
    (∃ a, find k = some a) ∧ t.query.method? = some .announcePeer
  linked : ∀ k a, find k = some a → AnnounceLinked owed k a
  busy : ∀ k a, find k = some a → (∃ more, driven = some (k, more)) ∨ Waits a
  driven : ∀ k rounds picked, driven = some (k, rounds, picked) →
    ∃ a, find k = some a ∧ a.count (· = .unused) < rounds ∧ Picked a picked

variable {owed later : Transaction → Prop} {driven : Option (LookupId × Nat × List Contact)}
  {k : LookupId} {find after : LookupId → Option Announce} {t : Transaction} {a next : Announce}
  {rounds : Nat} {contact : Contact} {picked : List Contact} {state : TargetState}

theorem AnnounceLinked.congr (linked : AnnounceLinked owed k a)
    (same : ∀ t, t.owner = .announce k → (later t ↔ owed t)) : AnnounceLinked later k a where
  distinct := linked.distinct
  told := by
    intro target member id pending
    rcases linked.told target member id pending with ⟨t, owes, owner, rest⟩
    exact ⟨t, (same t owner).mpr owes, owner, rest⟩
  asked := fun t owes owner => linked.asked t ((same t owner).mp owes) owner

/-- A node that was chosen is not waited for. -/
theorem AnnounceLinked.not_to_picked {target : AnnounceTarget} (linked : AnnounceLinked owed k a)
    (member : target ∈ a.targets) (chosen : target.state = .picked) (owes : owed t)
    (owner : t.owner = .announce k) : ¬ IsTo t target.contact := by
  intro sent
  rcases linked.asked t owes owner with ⟨other, among, pending, to_other⟩
  have hSame := eq_of_nodup_map linked.distinct member among (sent.unique to_other)
  rw [← hSame, chosen] at pending
  cases pending

/-- No node is sent two queries. -/
theorem AnnounceLinked.eq_id {other : Transaction} (linked : AnnounceLinked owed k a)
    (first : owed t) (second : owed other) (belongs : t.owner = .announce k)
    (belongs_other : other.owner = .announce k) (isTo : IsTo t contact)
    (isTo_other : IsTo other contact) : t.id = other.id := by
  rcases linked.asked t first belongs with ⟨target, among, pending, to_target⟩
  rcases linked.asked other second belongs_other with ⟨target', among', pending', to_target'⟩
  have hContact := (to_target.unique isTo).trans (to_target'.unique isTo_other).symm
  have hSame := eq_of_nodup_map linked.distinct among among' hContact
  rw [hSame] at pending
  exact TargetState.pending.inj (pending.symm.trans pending')

/-- A node that was chosen is waited for from now on. -/
theorem AnnounceLinked.sent (linked : AnnounceLinked owed k a)
    (chosen : ∃ target ∈ a.targets, target.contact = contact ∧ target.state = .picked)
    (owner : t.owner = .announce k) (isTo : IsTo t contact)
    (owes : ∀ other, later other ↔ owed other ∨ other = t) :
    AnnounceLinked later k (a.sent contact t.id) := by
  rcases chosen with ⟨mine, among, here, is_picked⟩
  have hOthers : ∀ target, target ∈ (a.sent contact t.id).targets ↔
      (target ∈ a.targets ∧ target.contact ≠ contact) ∨
        ∃ old ∈ a.targets, old.contact = contact ∧ target = { old with state := .pending t.id } :=
    fun _ => Announce.mem_setState linked.distinct
  refine ⟨?_, ?_, ?_⟩
  · unfold Announce.sent
    rw [Announce.contacts_setState]
    exact linked.distinct
  · intro target member id pending
    rcases (hOthers target).mp member with ⟨old, -⟩ | ⟨old, -, rfl, rfl⟩
    · rcases linked.told target old id pending with ⟨other, before, rest⟩
      exact ⟨other, (owes other).mpr (.inl before), rest⟩
    · exact ⟨t, (owes t).mpr (.inr rfl), owner, TargetState.pending.inj pending, isTo⟩
  · intro other owed_later belongs
    rcases (owes other).mp owed_later with before | rfl
    · rcases linked.asked other before belongs with ⟨target, old, pending, to_target⟩
      refine ⟨target, (hOthers target).mpr (.inl ⟨old, ?_⟩), pending, to_target⟩
      intro same
      rw [same, ← here] at to_target
      exact linked.not_to_picked among is_picked before belongs to_target
    · refine ⟨_, (hOthers _).mpr (.inr ⟨mine, among, here, rfl⟩), rfl, ?_⟩
      rw [here]
      exact isTo

/-- A node that has answered, or will not, is waited for no longer. -/
theorem AnnounceLinked.onReply {success : Bool} (linked : AnnounceLinked owed k a)
    (owes : ∀ t, t.owner = .announce k → (later t ↔ owed t ∧ ¬ IsTo t contact)) :
    AnnounceLinked later k (a.onReply contact success) := by
  have hSettled : ∀ id, (if success then TargetState.success else .failure) ≠ .pending id := by
    intro id
    cases success <;> exact nofun
  refine ⟨?_, ?_, ?_⟩
  · unfold Announce.onReply
    rw [Announce.contacts_setState]
    exact linked.distinct
  · intro target member id pending
    rcases (Announce.mem_setState linked.distinct).mp member with
      ⟨old, different⟩ | ⟨old, -, -, rfl⟩
    · rcases linked.told target old id pending with ⟨t, before, belongs, number, to_target⟩
      refine ⟨t, (owes t belongs).mpr ⟨before, ?_⟩, belongs, number, to_target⟩
      exact fun to_contact => different (to_target.unique to_contact)
    · exact absurd pending (hSettled id)
  · intro t owes_later belongs
    rcases (owes t belongs).mp owes_later with ⟨before, elsewhere⟩
    rcases linked.asked t before belongs with ⟨target, old, pending, to_target⟩
    refine ⟨target, (Announce.mem_setState linked.distinct).mpr (.inl ⟨old, ?_⟩), pending,
      to_target⟩
    intro same
    rw [same] at to_target
    exact elsewhere to_target

theorem Picked.onReply {success : Bool} (chosen : Picked a [])
    (distinct : (a.targets.map (·.contact)).Nodup) : Picked (a.onReply contact success) [] := by
  have hTold : (if success then TargetState.success else .failure) ≠ .picked := by
    cases success <;> exact nofun
  refine ⟨List.nodup_nil, nofun, ?_⟩
  intro target member is_picked
  rcases (Announce.mem_setState distinct).mp member with ⟨old, -⟩ | ⟨old, -, -, rfl⟩
  · exact chosen.only target old is_picked
  · exact absurd is_picked hTold

/-- One of the chosen nodes is told, or cannot be. -/
theorem Picked.tail (chosen : Picked a (contact :: picked))
    (distinct : (a.targets.map (·.contact)).Nodup) (other : state ≠ .picked) :
    Picked (a.setState contact state) picked := by
  rcases List.nodup_cons.mp chosen.distinct with ⟨apart, later⟩
  refine ⟨later, ?_, ?_⟩
  · intro c member
    rcases chosen.known c (List.mem_cons_of_mem _ member) with ⟨target, among, rfl, is_picked⟩
    refine ⟨target, (Announce.mem_setState distinct).mpr (.inl ⟨among, ?_⟩), rfl, is_picked⟩
    intro same
    rw [same] at member
    exact apart member
  · intro target among is_picked
    rcases (Announce.mem_setState distinct).mp among with ⟨old, different⟩ | ⟨old, -, -, rfl⟩
    · rcases List.mem_cons.mp (chosen.only target old is_picked) with same | member
      · exact absurd same different
      · exact member
    · exact absurd is_picked other

/-- When all that were chosen have been told, an answer is to come from one of them. -/
theorem Picked.waits (chosen : Picked a [])
    (waits : ∃ target ∈ a.targets, target.state.isInFlight = true) : Waits a := by
  rcases waits with ⟨target, member, inFlight⟩
  refine ⟨⟨target, member, ?_⟩, chosen⟩
  cases state : target.state with
  | pending id => exact ⟨id, rfl⟩
  | picked => exact absurd (chosen.only target member state) List.not_mem_nil
  | unused => rw [state] at inFlight; cases inFlight
  | success => rw [state] at inFlight; cases inFlight
  | failure => rw [state] at inFlight; cases inFlight

/-- Nobody is waited for yet among those that are chosen. -/
theorem AnnounceLinked.pick {own : NodeId} (linked : AnnounceLinked owed k a) :
    AnnounceLinked owed k (a.pick own).2 := by
  refine ⟨?_, ?_, ?_⟩
  · rw [Announce.contacts_pick]
    exact linked.distinct
  · intro target member id pending
    rcases Announce.mem_pick_cases member with old | ⟨is_picked, -⟩
    · exact linked.told target old id pending
    · rw [is_picked] at pending
      cases pending
  · intro t owes owner
    rcases linked.asked t owes owner with ⟨target, member, pending, to_target⟩
    refine ⟨target, Announce.mem_pick_of_used member ?_, pending, to_target⟩
    rw [pending]
    exact nofun

theorem Picked.pick {own : NodeId} (chosen : Picked a [])
    (distinct : (a.targets.map (·.contact)).Nodup) :
    Picked (a.pick own).2 ((a.pick own).1.map (·.1)) := by
  refine ⟨Announce.nodup_picked distinct, fun _ => Announce.state_of_picked, ?_⟩
  intro target member is_picked
  rcases Announce.mem_pick_cases member with old | ⟨-, chosen_target⟩
  · exact absurd (chosen.only target old is_picked) List.not_mem_nil
  · exact chosen_target

namespace Announcing

theorem congr (announcing : Announcing owed driven find)
    (same : ∀ t k, t.owner = .announce k → (later t ↔ owed t)) :
    Announcing later driven find where
  owner := fun t k owes owner => announcing.owner t k ((same t k owner).mp owes) owner
  linked := fun k a found => (announcing.linked k a found).congr fun t owner => same t k owner
  busy := announcing.busy
  driven := announcing.driven

/-- A query is sent for somebody else. -/
theorem add (announcing : Announcing owed driven find)
    (owes : ∀ other, later other ↔ owed other ∨ other = t)
    (stranger : ∀ k, t.owner ≠ .announce k) : Announcing later driven find := by
  apply announcing.congr
  intro other k belongs
  apply iff_of_add owes
  rw [belongs]
  exact (stranger k).symm

/-- A query of somebody else is settled. -/
theorem drop (announcing : Announcing owed driven find)
    (owes : ∀ other, later other ↔ owed other ∧ other ≠ t)
    (stranger : ∀ k, t.owner ≠ .announce k) : Announcing later driven find := by
  apply announcing.congr
  intro other k belongs
  apply iff_of_drop owes
  rw [belongs]
  exact (stranger k).symm

/-- The announcement that is driven on has rounds enough. -/
theorem driven_of_found (announcing : Announcing owed (some (k, rounds, picked)) find)
    (found : find k = some a) : a.count (· = .unused) < rounds ∧ Picked a picked := by
  rcases announcing.driven k rounds picked rfl with ⟨same, found_too, driven⟩
  rw [found] at found_too
  rcases Option.some.inj found_too with rfl
  exact driven

/-- One announcement changes, and only its own queries with it.  It is the only one that was or is
driven on. -/
theorem update (before again : Option (Nat × List Contact))
    (announcing : Announcing owed (before.map (k, ·)) find)
    (updates : Updates find k (some next) after)
    (owner : ∀ t, later t → t.owner = .announce k → t.query.method? = some .announcePeer)
    (same : ∀ t other, t.owner = .announce other → other ≠ k → (later t ↔ owed t))
    (linked : AnnounceLinked later k next) (busy : again.isSome = true ∨ Waits next)
    (drives : ∀ rounds picked, again = some (rounds, picked) →
      next.count (· = .unused) < rounds ∧ Picked next picked) :
    Announcing later (again.map (k, ·)) after := by
  refine ⟨?_, ?_, ?_, ?_⟩
  · intro t other owes belongs
    by_cases here : other = k
    · rw [here] at belongs ⊢
      exact ⟨⟨next, updates.self⟩, owner t owes belongs⟩
    · rw [updates.other here]
      exact announcing.owner t other ((same t other belongs here).mp owes) belongs
  · intro other a found
    by_cases here : other = k
    · rw [here, updates.self] at found
      rw [here, ← Option.some.inj found]
      exact linked
    · rw [updates.other here] at found
      exact (announcing.linked other a found).congr fun t belongs => same t other belongs here
  · intro other a found
    by_cases here : other = k
    · rw [here, updates.self] at found
      rw [here, ← Option.some.inj found]
      refine busy.imp_left fun isSome => ?_
      rcases Option.isSome_iff_exists.mp isSome with ⟨more, rfl⟩
      exact ⟨more, rfl⟩
    · rw [updates.other here] at found
      rcases announcing.busy other a found with ⟨more, drives⟩ | waits
      · rcases Option.map_eq_some_iff.mp drives with ⟨more, -, same⟩
        exact absurd (Prod.mk.inj same).1.symm here
      · exact .inr waits
  · intro other rounds picked drives_other
    rcases Option.map_eq_some_iff.mp drives_other with ⟨more, given, same⟩
    cases same
    exact ⟨next, updates.self, drives rounds picked given⟩

theorem start (none_owed : ∀ t k, owed t → t.owner ≠ .announce k)
    (empty : ∀ k, find k = none) : Announcing owed none find where
  owner := fun t k owes owner => absurd owner (none_owed t k owes)
  linked := fun k a found => absurd found (by rw [empty]; exact nofun)
  busy := fun k a found => absurd found (by rw [empty]; exact nofun)
  driven := nofun

/-- The query to a chosen node gets out. -/
theorem sent (announcing : Announcing owed (some (k, rounds, contact :: picked)) find)
    (found : find k = some a) (owner : t.owner = .announce k)
    (method : t.query.method? = some .announcePeer) (isTo : IsTo t contact)
    (owes : ∀ other, later other ↔ owed other ∨ other = t)
    (updates : Updates find k (some (a.sent contact t.id)) after) :
    Announcing later (some (k, rounds, picked)) after := by
  have hLinked := announcing.linked k a found
  rcases announcing.driven_of_found found with ⟨enough, chosen⟩
  refine announcing.update (some _) (some _) updates ?_ ?_
    (hLinked.sent (chosen.known contact List.mem_cons_self) owner isTo owes) (.inl rfl) ?_
  · intro other owed_later belongs
    rcases (owes other).mp owed_later with before | rfl
    · exact (announcing.owner other k before belongs).2
    · exact method
  · intro other key belongs different
    apply iff_of_add owes
    rw [belongs, owner]
    exact fun same => different (Owner.announce.inj same)
  · intro others chosen_others same
    cases same
    refine ⟨Nat.lt_of_le_of_lt (Announce.count_unused_setState_le nofun) enough, ?_⟩
    exact chosen.tail hLinked.distinct nofun

/-- The query to a chosen node does not get out. -/
theorem sendFailed (announcing : Announcing owed (some (k, rounds, contact :: picked)) find)
    (found : find k = some a) (updates : Updates find k (some (a.onReply contact false)) after) :
    Announcing owed (some (k, rounds, picked)) after := by
  have hLinked := announcing.linked k a found
  rcases announcing.driven_of_found found with ⟨enough, chosen⟩
  rcases chosen.known contact List.mem_cons_self with ⟨target, among, rfl, is_picked⟩
  refine announcing.update (some _) (some _) updates ?_ (fun _ _ _ _ => .rfl) ?_ (.inl rfl) ?_
  · exact fun other owes belongs => (announcing.owner other k owes belongs).2
  · apply hLinked.onReply
    intro t owner
    exact (and_iff_left_of_imp fun owes => hLinked.not_to_picked among is_picked owes owner).symm
  · intro others chosen_others same
    cases same
    refine ⟨Nat.lt_of_le_of_lt (Announce.count_unused_setState_le nofun) enough, ?_⟩
    exact chosen.tail hLinked.distinct nofun

/-- The query to a node is settled, and the announcement is to be driven on. -/
theorem settled {success : Bool} (announcing : Announcing owed none find) (found : find k = some a)
    (owner : t.owner = .announce k) (owed_now : owed t) (isTo : IsTo t contact)
    (distinct : ∀ other, owed other → other.id = t.id → other = t)
    (owes : ∀ other, later other ↔ owed other ∧ other ≠ t)
    (updates : Updates find k (some (a.onReply contact success)) after) :
    Announcing later (some (k, (a.onReply contact success).count (· = .unused) + 1, [])) after := by
  have hLinked := announcing.linked k a found
  have hPicked : Picked a [] := by
    rcases announcing.busy k a found with ⟨more, drives⟩ | ⟨-, chosen⟩
    · cases drives
    · exact chosen
  refine announcing.update none (some _) updates ?_ ?_ ?_ (.inl rfl) ?_
  · exact fun other owes_later belongs =>
      (announcing.owner other k ((owes other).mp owes_later).1 belongs).2
  · intro other key belongs different
    apply iff_of_drop owes
    rw [belongs, owner]
    exact fun same => different (Owner.announce.inj same)
  · apply hLinked.onReply
    intro other belongs
    rw [owes]
    refine and_congr_right fun before => not_congr ⟨?_, ?_⟩
    · rintro rfl
      exact isTo
    · intro to_same
      exact distinct other before (hLinked.eq_id before owed_now belongs owner to_same isTo)
  · intro others chosen_others same
    cases same
    exact ⟨Nat.lt_succ_self _, hPicked.onReply hLinked.distinct⟩

/-- The announcement that is driven on chooses some nodes. -/
theorem round {own : NodeId} (announcing : Announcing owed (some (k, rounds + 1, [])) find)
    (found : find k = some a) (some_chosen : (a.pick own).1 ≠ [])
    (updates : Updates find k (some (a.pick own).2) after) :
    Announcing owed (some (k, rounds, (a.pick own).1.map (·.1))) after := by
  have hLinked := announcing.linked k a found
  have hLess := Announce.count_pick_lt some_chosen
  rcases announcing.driven_of_found found with ⟨enough, chosen⟩
  refine announcing.update (some _) (some _) updates ?_ (fun _ _ _ _ => .rfl) hLinked.pick
    (.inl rfl) ?_
  · exact fun other owes belongs => (announcing.owner other k owes belongs).2
  · intro others chosen_others same
    cases same
    exact ⟨by omega, chosen.pick hLinked.distinct⟩

/-- The announcement that is driven on stays as it is. -/
theorem redrive (again : Option (Nat × List Contact))
    (announcing : Announcing owed (some (k, rounds, picked)) find) (found : find k = some a)
    (busy : again.isSome = true ∨ Waits a)
    (drives : ∀ rounds picked, again = some (rounds, picked) →
      a.count (· = .unused) < rounds ∧ Picked a picked) :
    Announcing owed (again.map (k, ·)) find := by
  refine announcing.update (some _) again (.refl found) ?_ (fun _ _ _ _ => .rfl)
    (announcing.linked k a found) busy drives
  exact fun other owes belongs => (announcing.owner other k owes belongs).2

/-- The rounds that an announcement may take can be counted anew. -/
theorem restep {more : Nat} (announcing : Announcing owed (some (k, rounds, picked)) find)
    (found : find k = some a) (enough : a.count (· = .unused) < more) :
    Announcing owed (some (k, more, picked)) find := by
  refine announcing.redrive (some (more, picked)) found (.inl rfl) ?_
  intro others chosen_others same
  cases same
  exact ⟨enough, (announcing.driven_of_found found).2⟩

/-- The announcement that is driven on waits for answers. -/
theorem waits (announcing : Announcing owed (some (k, rounds, [])) find) (found : find k = some a)
    (waits : ∃ target ∈ a.targets, target.state.isInFlight = true) :
    Announcing owed none find := by
  have hChosen := (announcing.driven_of_found found).2
  exact announcing.redrive none found (.inr (hChosen.waits waits)) nofun

/-- The announcement that is driven on is over. -/
theorem remove (announcing : Announcing owed (some (k, rounds, picked)) find)
    (found : find k = some a)
    (ended : ∀ target ∈ a.targets, target.state.isInFlight = false)
    (updates : Updates find k none after) : Announcing owed none after := by
  have hNobody : ∀ t, owed t → t.owner ≠ .announce k := by
    intro t owes owner
    rcases (announcing.linked k a found).asked t owes owner with ⟨target, member, pending, -⟩
    have hEnded := ended target member
    rw [pending] at hEnded
    cases hEnded
  have hBefore : ∀ other a, after other = some a → other ≠ k ∧ find other = some a := by
    intro other a found
    by_cases here : other = k
    · rw [here, updates.self] at found
      cases found
    · rw [updates.other here] at found
      exact ⟨here, found⟩
  refine ⟨?_, ?_, ?_, nofun⟩
  · intro t other owes owner
    have hOther : other ≠ k := by
      rintro rfl
      exact hNobody t owes owner
    rw [updates.other hOther]
    exact announcing.owner t other owes owner
  · intro other a found
    exact announcing.linked other a (hBefore other a found).2
  · intro other a found
    rcases hBefore other a found with ⟨different, before⟩
    rcases announcing.busy other a before with ⟨more, drives⟩ | waits
    · cases drives
      exact absurd rfl different
    · exact .inr waits

/-- An announcement is added, none of whose nodes has been told. -/
theorem launch {targets : List (Contact × Bytes)} {infoHash : InfoHash} {port : Option UInt16}
    (announcing : Announcing owed none find) (absent : find k = none)
    (distinct : (targets.map (·.1)).Nodup)
    (updates : Updates find k (some (.start infoHash targets port)) after) :
    Announcing owed
      (some (k, (Announce.start infoHash targets port).count (· = .unused) + 1, [])) after := by
  have hNobody : ∀ t, owed t → t.owner ≠ .announce k := by
    intro t owes owner
    rcases (announcing.owner t k owes owner).1 with ⟨other, found⟩
    rw [absent] at found
    cases found
  have hUnused : ∀ target ∈ (Announce.start infoHash targets port).targets,
      target.state = .unused := by
    intro target member
    rcases List.mem_map.mp member with ⟨entry, -, rfl⟩
    rfl
  refine announcing.update none (some _) updates ?_ (fun _ _ _ _ => .rfl) ⟨?_, ?_, ?_⟩
    (.inl rfl) ?_
  · exact fun t owes owner => absurd owner (hNobody t owes)
  · unfold Announce.start
    rw [List.map_map]
    exact distinct
  · intro target member id pending
    rw [hUnused target member] at pending
    cases pending
  · exact fun t owes owner => absurd owner (hNobody t owes)
  · intro others chosen_others same
    cases same
    refine ⟨Nat.lt_succ_self _, List.nodup_nil, nofun, ?_⟩
    intro target member is_picked
    rw [hUnused target member] at is_picked
    cases is_picked

end Announcing
end LocalNode
end Kademlia
