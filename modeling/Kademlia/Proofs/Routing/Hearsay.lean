import Kademlia.Proofs.Routing.WellFormed

namespace Kademlia
namespace Routing

/-!
What becomes of the nodes that are known when others are learned by hearsay.  A good node does not
give way to one that was only heard of, and a split drops none but bad nodes.  But a bucket takes an
identifier for the node: when a good node is named at another address, what is known of it is
replaced by what is not known of the other.  That is the only harm which hearsay does, and a single
false contact is enough for it.
-/

variable {own : NodeId} {t : Table} {bucket changed : Bucket} {now : Instant}
  {newcomer node known : Node} {contact : Contact} {contacts : List Contact}

theorem Node.status_questionable : (Node.questionable now contact).status now = .questionable :=
  rfl

/-! ## Buckets -/

namespace Bucket

/-- A node stays in its bucket unless it is worse than a newcomer. -/
theorem mem_add?_of_other (added : bucket.add? now newcomer = some changed)
    (distinct : bucket.ids.Nodup) (member : node ∈ bucket)
    (other : node.contact.id ≠ newcomer.contact.id)
    (kept : (node.status now).worseThan (newcomer.status now) = false) : node ∈ changed := by
  cases added_of_add? added with
  | passed => exact member
  | renewed => exact (mem_modifyFirst_iff distinct).mpr (.inl ⟨member, other⟩)
  | appended => exact List.mem_append_left _ member
  | replaced victim _ among worse =>
    have hContacts : (bucket.map (·.contact)).Nodup := by
      rw [ids, List.Nodup, List.pairwise_map] at distinct
      rw [List.Nodup, List.pairwise_map]
      exact distinct.imp fun apart same => apart (congrArg Contact.id same)
    refine (mem_modifyFirst_iff hContacts).mpr (.inl ⟨member, ?_⟩)
    intro same
    rw [eq_of_nodup_map hContacts member among same, worse] at kept
    cases kept

/-- Nothing comes into a bucket but the newcomer, and what is now known of it. -/
theorem mem_of_mem_add? (added : bucket.add? now newcomer = some changed)
    (member : node ∈ changed) :
    node ∈ bucket ∨ node = newcomer ∨
      ∃ known ∈ bucket, known.contact.id = newcomer.contact.id ∧ node = renew newcomer known := by
  cases added_of_add? added with
  | passed => exact .inl member
  | renewed =>
    rcases mem_modifyFirst member with old | ⟨known, among, same, rfl⟩
    · exact .inl old
    · exact .inr (.inr ⟨known, among, of_decide_eq_true same, rfl⟩)
  | appended =>
    rcases List.mem_append.mp member with old | new
    · exact .inl old
    · exact .inr (.inl (List.mem_singleton.mp new))
  | replaced =>
    rcases mem_modifyFirst member with old | ⟨-, -, -, new⟩
    · exact .inl old
    · exact .inr (.inl new)

theorem add?_of_known (pingable : newcomer.status now ≠ .bad)
    (known : newcomer.contact.id ∈ bucket.ids) :
    bucket.add? now newcomer =
      some (modifyFirst (·.contact.id = newcomer.contact.id) (renew newcomer) bucket) := by
  rw [Bucket.add?, if_neg pingable, if_pos (any_id_iff.mpr known)]

theorem renew_questionable (known : Node) :
    renew (.questionable now contact) known =
      if known.contact.address = contact.address then known else .questionable now contact :=
  rfl

/-- A good node stays in its bucket unless it is named at another address. -/
theorem mem_add?_hearsay_iff (distinct : bucket.ids.Nodup) (good : node.status now = .good) :
    node ∈ (bucket.add? now (.questionable now contact)).getD bucket ↔
      node ∈ bucket ∧ (contact.id = node.contact.id → contact = node.contact) := by
  have hHeard : node ≠ .questionable now contact := by
    rintro rfl
    rw [Node.status_questionable] at good
    cases good
  by_cases known : contact.id ∈ bucket.ids
  · have hPingable : (Node.questionable now contact).status now ≠ .bad := by
      rw [Node.status_questionable]
      exact Status.noConfusion
    have hAdd := add?_of_known hPingable known
    rw [hAdd, Option.getD_some, mem_modifyFirst_iff distinct]
    constructor
    · rintro (⟨member, other⟩ | ⟨old, among, here, renewed⟩)
      · exact ⟨member, fun same => absurd same.symm other⟩
      · rw [renew_questionable] at renewed
        split at renewed
        next stayed =>
          rw [renewed]
          refine ⟨among, fun same => ?_⟩
          rcases old with ⟨⟨id, address⟩⟩
          rcases contact with ⟨named, told⟩
          cases same
          cases stayed
          rfl
        next => exact absurd renewed hHeard
    · rintro ⟨member, named⟩
      by_cases same : contact.id = node.contact.id
      · refine .inr ⟨node, member, same.symm, ?_⟩
        rw [renew_questionable, if_pos (congrArg Contact.address (named same)).symm]
      · exact .inl ⟨member, fun here => same here.symm⟩
  · have hOther : node ∈ bucket → node.contact.id ≠ contact.id := by
      intro member same
      rw [← same] at known
      exact known (mem_ids member)
    cases added : bucket.add? now (.questionable now contact) with
    | none =>
      exact (and_iff_left_of_imp fun member same => absurd same.symm (hOther member)).symm
    | some changed =>
      rw [Option.getD_some]
      constructor
      · intro member
        rcases mem_of_mem_add? added member with old | new | ⟨old, among, here, -⟩
        · exact ⟨old, fun same => absurd same.symm (hOther old)⟩
        · exact absurd new hHeard
        · exact absurd (here ▸ mem_ids among) known
      · rintro ⟨member, -⟩
        apply mem_add?_of_other added distinct member (hOther member)
        rw [good]
        rfl

end Bucket

/-! ## The table -/

namespace Table

theorem bucketOf_modifyBucket (t : Table) (id other : NodeId) (change : Bucket → Bucket) :
    (t.modifyBucket id change).bucketOf other =
      if placement t.own t.buckets.length id = placement t.own t.buckets.length other then
        change (t.bucketOf other)
      else t.bucketOf other := by
  have hOther := getElem?_placement (t.modifyBucket id change) other
  rw [own_modifyBucket, buckets_modifyBucket, List.length_modify] at hOther
  have hBefore := getElem?_placement t other
  split
  next here =>
    rw [here, List.getElem?_modify_eq, hBefore] at hOther
    exact (Option.some.inj hOther).symm
  next apart =>
    rw [List.getElem?_modify_ne _ _ apart, hBefore] at hOther
    exact (Option.some.inj hOther).symm

/-- All that is known of an identifier stands in the bucket that it belongs into. -/
theorem Sorted.mem_nodes_iff (sorted : Sorted own t) :
    node ∈ t.nodes ↔ node ∈ t.bucketOf node.contact.id := by
  have hHome := getElem?_placement t node.contact.id
  rw [nodes, List.mem_flatten]
  constructor
  · rintro ⟨bucket, filed, member⟩
    rcases List.getElem?_of_mem filed with ⟨i, place⟩
    have hBelongs := (sorted.inOrder i bucket place).member _ (Bucket.mem_ids member)
    rw [sorted.same, hBelongs.2, place] at hHome
    rcases Option.some.inj hHome with rfl
    exact member
  · exact fun member => ⟨_, List.mem_of_getElem? hHome, member⟩

/-- Of the nodes known to a table, a split drops only bad ones. -/
theorem mem_nodes_split (pingable : node.isPingable now = true) :
    node ∈ (t.split now).nodes ↔ node ∈ t.nodes := by
  unfold nodes buckets split
  simp only [List.flatten_append, List.mem_append, List.flatten_singleton, List.mem_filter,
    pingable, and_true, or_assoc]
  by_cases here : t.own.commonBits node.contact.id ≤ t.front.length <;> simp [here]

theorem Sorted.mem_fit_hearsay_iff (sorted : Sorted own t) (other : contact.id ≠ own)
    (good : node.status now = .good) :
    node ∈ (t.fit now (.questionable now contact)).nodes ↔
      node ∈ t.nodes ∧ (contact.id = node.contact.id → contact = node.contact) := by
  have hHome := getElem?_placement t node.contact.id
  have hFit := @Sorted.fit own t now (.questionable now contact) sorted other
  rw [hFit.mem_nodes_iff, sorted.mem_nodes_iff, Table.fit, bucketOf_modifyBucket]
  split
  next => exact Bucket.mem_add?_hearsay_iff (sorted.inOrder _ _ hHome).distinct good
  next apart =>
    refine (and_iff_left fun same => absurd ?_ apart).symm
    rw [Node.questionable, same]

/-- The bucket that the newcomer gets into is found by splitting, which good nodes survive. -/
theorem Sorted.mem_placed_hearsay_iff {placed : Table} (sorted : Sorted own t)
    (other : contact.id ≠ own) (good : node.status now = .good)
    (place : Placed now (.questionable now contact) t placed) :
    node ∈ placed.nodes ↔
      node ∈ t.nodes ∧ (contact.id = node.contact.id → contact = node.contact) := by
  induction place with
  | here => exact sorted.mem_fit_hearsay_iff other good
  | split _ few _ ih =>
    rw [ih (sorted.split few), mem_nodes_split]
    rw [Node.isPingable, good]
    rfl

/-- What one contact does to a good node. -/
theorem Sorted.mem_learn_iff (sorted : Sorted own t) (good : node.status now = .good) :
    node ∈ (t.learn now contact).nodes ↔
      node ∈ t.nodes ∧ (contact.id = node.contact.id → contact = node.contact) := by
  unfold Table.learn
  split
  next found =>
    -- a contact that is known has no namesake at another address
    refine (and_iff_left_of_imp fun member same => ?_).symm
    rcases sorted.find?_isSome_iff.mp found with ⟨bucket, filed, known, listed, rfl⟩
    have hListed : known ∈ t.nodes := List.mem_flatten.mpr ⟨bucket, filed, listed⟩
    rw [eq_of_nodup_map sorted.nodup_ids hListed member same]
  next =>
    unfold Table.add
    split
    next absent =>
      refine (and_iff_left_of_imp fun member same => ?_).symm
      rcases absent with bad | self
      · cases bad
      · exact absurd (same.symm.trans (self.trans sorted.same))
          (sorted.wellFormed.others node member)
    next present =>
      apply sorted.mem_placed_hearsay_iff _ good (placed_place _ _ _)
      rw [← sorted.same]
      exact fun self => present (.inr self)

/-- A good node is still known after nodes were learned by hearsay, just as it was, if and only if
none of them has its identifier at another address. -/
theorem mem_learnAll_iff_of_good {own : NodeId} {t : Table} {now : Instant} {node : Node}
    (contacts : List Contact) (reachable : Reachable own t) (good : node.status now = .good) :
    node ∈ (t.learnAll now contacts).nodes ↔
      node ∈ t.nodes ∧
        ∀ contact ∈ contacts, contact.id = node.contact.id → contact = node.contact := by
  have hSorted := reachable.sorted
  clear reachable
  unfold learnAll
  induction contacts generalizing t with
  | nil => simp
  | cons contact contacts ih =>
    have hLearn : Sorted own (t.learn now contact) := hSorted.learn
    rw [List.foldl_cons]
    refine (ih hLearn).trans ?_
    rw [hSorted.mem_learn_iff good, List.forall_mem_cons, and_assoc]

/-- The case of a node that has answered, and is then named together with another one. -/
theorem mem_learnAll_of_answered :
    Node.good 0 ⟨⟨1⟩, ⟨.v4 1, 1⟩⟩ ∈
      ((({ own := .zero } : Table).answered 0 ⟨⟨1⟩, ⟨.v4 1, 1⟩⟩ none).learnAll 0
        [⟨⟨1⟩, ⟨.v4 1, 1⟩⟩, ⟨⟨2⟩, ⟨.v4 2, 1⟩⟩]).nodes := by
  have hReachable := Reachable.answered 0 ⟨⟨1⟩, ⟨.v4 1, 1⟩⟩ none (@Reachable.new .zero)
  exact (mem_learnAll_iff_of_good _ hReachable rfl).mpr ⟨by decide +kernel, by decide⟩

/-- A node that has just answered is lost as soon as somebody names it at another address. -/
theorem not_mem_learnAll_of_moved :
    Reachable .zero (({ own := .zero } : Table).answered 0 ⟨⟨1⟩, ⟨.v4 1, 1⟩⟩ none) ∧
      (Node.good 0 ⟨⟨1⟩, ⟨.v4 1, 1⟩⟩).status 0 = .good ∧
      Node.good 0 ⟨⟨1⟩, ⟨.v4 1, 1⟩⟩ ∈
        (({ own := .zero } : Table).answered 0 ⟨⟨1⟩, ⟨.v4 1, 1⟩⟩ none).nodes ∧
      Node.good 0 ⟨⟨1⟩, ⟨.v4 1, 1⟩⟩ ∉
        ((({ own := .zero } : Table).answered 0 ⟨⟨1⟩, ⟨.v4 1, 1⟩⟩ none).learnAll 0
          [⟨⟨1⟩, ⟨.v4 2, 1⟩⟩]).nodes :=
  ⟨.answered 0 _ none .new, rfl, by decide +kernel, by decide +kernel⟩

end Table
end Routing
end Kademlia
