import Kademlia.Proofs.Routing.Buckets

namespace Kademlia
namespace Routing

/-!
The structure of the routing table.  In every table that comes about, each node stands in the bucket
that its distance calls for, so that a contact is found where its identifier belongs.

The invariant (`Table.Sorted`) speaks of every bucket alone: that identifiers are distinct across
the table follows, since buckets apart hold nodes at different distances.  A split is the only place
where the meaning of a bucket changes; everything else works inside one bucket.
-/

namespace Table

/-- The bucket that an identifier belongs into, if there are `count` of them. -/
def placement (own : NodeId) (count : Nat) (id : NodeId) : Nat :=
  min (own.commonBits id) (count - 1)

/-- What belongs into bucket `i` of `count`. -/
def Belongs (own : NodeId) (count i : Nat) (id : NodeId) : Prop :=
  id ≠ own ∧ placement own count id = i

/-- Every bucket of the table is in order. -/
structure Sorted (own : NodeId) (t : Table) : Prop where
  same : t.own = own
  few : t.front.length < maxBuckets
  inOrder : ∀ (i : Nat) (bucket : Bucket), t.buckets[i]? = some bucket →
    bucket.InOrder (Belongs own t.buckets.length i)

variable {own id : NodeId} {t : Table} {now : Instant} {node : Node} {contact : Contact}

@[simp]
theorem length_buckets (t : Table) : t.buckets.length = t.front.length + 1 := by
  rw [buckets, List.length_append, List.length_singleton]

/-! ## One bucket at a time -/

theorem bucketOf_of_back (back : t.front.length ≤ t.own.commonBits id) : t.bucketOf id = t.last := by
  rw [bucketOf, List.getD_eq_getElem?_getD, List.getElem?_eq_none back, Option.getD_none]

theorem getElem?_placement (t : Table) (id : NodeId) :
    t.buckets[placement t.own t.buckets.length id]? = some (t.bucketOf id) := by
  rw [length_buckets, placement, buckets, Nat.add_sub_cancel]
  by_cases front : t.own.commonBits id < t.front.length
  · rw [Nat.min_eq_left (Nat.le_of_lt front), List.getElem?_append_left front, bucketOf,
      List.getD_eq_getElem?_getD, List.getElem?_eq_getElem front, Option.getD_some]
  · have hLast := Nat.le_of_not_lt front
    rw [Nat.min_eq_right hLast, bucketOf_of_back hLast, List.getElem?_concat_length]

theorem buckets_modifyBucket (t : Table) (id : NodeId) (change : Bucket → Bucket) :
    (t.modifyBucket id change).buckets =
      t.buckets.modify (placement t.own t.buckets.length id) change := by
  rw [length_buckets, placement, Nat.add_sub_cancel]
  unfold modifyBucket
  apply List.ext_getElem?
  intro i
  by_cases front : t.own.commonBits id < t.front.length
  · rw [if_pos front, Nat.min_eq_left (Nat.le_of_lt front)]
    grind [buckets]
  · have hLast := Nat.le_of_not_lt front
    rw [if_neg front, Nat.min_eq_right hLast]
    grind [buckets]

theorem own_modifyBucket (t : Table) (id : NodeId) (change : Bucket → Bucket) :
    (t.modifyBucket id change).own = t.own := by
  unfold modifyBucket
  by_cases front : t.own.commonBits id < t.front.length
  · rw [if_pos front]
  · rw [if_neg front]

/-- A table stays sorted if the bucket that changes stays in order. -/
theorem Sorted.modifyBucket {change : Bucket → Bucket} (sorted : Sorted own t)
    (keeps : (t.bucketOf id).InOrder
        (Belongs own t.buckets.length (placement own t.buckets.length id)) →
      (change (t.bucketOf id)).InOrder
        (Belongs own t.buckets.length (placement own t.buckets.length id))) :
    Sorted own (t.modifyBucket id change) := by
  have hLength : (t.modifyBucket id change).buckets.length = t.buckets.length := by
    rw [buckets_modifyBucket, List.length_modify]
  refine ⟨?_, ?_, ?_⟩
  · rw [own_modifyBucket]
    exact sorted.same
  · have hFew := sorted.few
    rw [length_buckets, length_buckets] at hLength
    omega
  · intro i bucket place
    rw [hLength]
    rw [buckets_modifyBucket, sorted.same] at place
    by_cases here : placement own t.buckets.length id = i
    · rcases here with rfl
      have hBucket := getElem?_placement t id
      rw [sorted.same] at hBucket
      rw [List.getElem?_modify_eq, hBucket] at place
      rcases Option.some.inj place with rfl
      exact keeps (sorted.inOrder _ _ hBucket)
    · rw [List.getElem?_modify_ne _ _ here] at place
      exact sorted.inOrder i bucket place

theorem Sorted.modify {change : Node → Node} (sorted : Sorted own t)
    (keeps : ∀ node, (change node).contact = node.contact) :
    Sorted own (t.modify contact change) := by
  apply sorted.modifyBucket
  intro inOrder
  apply inOrder.of_ids
  apply Bucket.ids_modifyFirst
  intro node _
  rw [keeps node]

/-! ## Taking in a node -/

theorem Sorted.new (own : NodeId) : Sorted own { own } where
  same := rfl
  few := Nat.succ_pos 159
  inOrder := by
    intro i bucket place
    rw [List.mem_singleton.mp (List.mem_of_getElem? place)]
    exact .nil

theorem Belongs.here {count : Nat} (other : id ≠ own) :
    Belongs own count (placement own count id) id :=
  ⟨other, rfl⟩

/-- A bucket more at the end does not change where the nodes of the others belong. -/
theorem Belongs.front {count i : Nat} (belongs : Belongs own (count + 1) i id) (front : i < count) :
    Belongs own (count + 2) i id := by
  rcases belongs with ⟨other, rfl⟩
  refine ⟨other, ?_⟩
  unfold placement at front ⊢
  omega

theorem Belongs.stays {count : Nat} (belongs : Belongs own (count + 1) count id)
    (here : own.commonBits id ≤ count) : Belongs own (count + 2) count id := by
  refine ⟨belongs.1, ?_⟩
  have hPlacement := belongs.2
  unfold placement at hPlacement ⊢
  omega

theorem Belongs.moves {count : Nat} (belongs : Belongs own (count + 1) count id)
    (there : ¬ own.commonBits id ≤ count) : Belongs own (count + 2) (count + 1) id := by
  refine ⟨belongs.1, ?_⟩
  unfold placement
  omega

/-- The nodes of a split bucket have found their place among one bucket more. -/
theorem Sorted.split (sorted : Sorted own t) (few : t.front.length + 1 < maxBuckets) :
    Sorted own (t.split now) := by
  have hLast : t.buckets[t.front.length]? = some t.last := List.getElem?_concat_length
  have hKept := (sorted.inOrder _ _ hLast).sublist
    (List.filter_sublist (p := fun n => n.isPingable now))
  rw [length_buckets] at hKept
  refine ⟨sorted.same, by rw [length_front_split]; exact few, ?_⟩
  intro i bucket place
  rw [length_buckets, length_front_split]
  unfold buckets Table.split at place
  rw [List.append_assoc] at place
  rcases Nat.lt_or_ge i t.front.length with front | back
  · -- the buckets in front keep their meaning
    rw [List.getElem?_append_left front] at place
    have hOld : t.buckets[i]? = some bucket := by
      rw [buckets, List.getElem?_append_left front]
      exact place
    have hInOrder := sorted.inOrder i bucket hOld
    rw [length_buckets] at hInOrder
    exact hInOrder.mono fun id _ belongs => belongs.front front
  · rw [List.getElem?_append_right back, List.singleton_append] at place
    cases position : i - t.front.length with
    | zero =>
      rw [position, List.getElem?_cons_zero] at place
      rcases Option.some.inj place with rfl
      apply (hKept.sublist List.filter_sublist).mono
      intro id known belongs
      rcases List.mem_map.mp known with ⟨node, member, rfl⟩
      have hHere := of_decide_eq_true (List.mem_filter.mp member).2
      rw [sorted.same] at hHere
      have hIndex : i = t.front.length := by omega
      rw [hIndex]
      exact belongs.stays hHere
    | succ further =>
      rw [position, List.getElem?_cons_succ] at place
      have hNext : further = 0 := by
        have hBound := (List.getElem?_eq_some_iff.mp place).1
        rw [List.length_singleton] at hBound
        omega
      rw [hNext, List.getElem?_cons_zero] at place
      rcases Option.some.inj place with rfl
      apply (hKept.sublist List.filter_sublist).mono
      intro id known belongs
      rcases List.mem_map.mp known with ⟨node, member, rfl⟩
      have hThere : ¬ own.commonBits node.contact.id ≤ t.front.length := by
        have hNot := (List.mem_filter.mp member).2
        rw [sorted.same] at hNot
        intro here
        rw [decide_eq_true here] at hNot
        exact absurd hNot (by decide)
      have hIndex : i = t.front.length + 1 := by omega
      rw [hIndex]
      exact belongs.moves hThere

/-- Puts a node into its bucket as it is, if there is room for the node or it is worth some. -/
def fit (t : Table) (now : Instant) (node : Node) : Table :=
  t.modifyBucket node.contact.id fun bucket => (bucket.add? now node).getD bucket

theorem Sorted.fit (sorted : Sorted own t) (other : node.contact.id ≠ own) :
    Sorted own (t.fit now node) := by
  apply sorted.modifyBucket
  intro inOrder
  cases added : (t.bucketOf node.contact.id).add? now node with
  | none => exact inOrder
  | some bucket => exact inOrder.add? (Belongs.here other) added

/-- How a node finds its place: in a bucket as it is, or in what becomes of one that is too full. -/
inductive Placed (now : Instant) (node : Node) : Table → Table → Prop
  | here {t : Table} : Placed now node t (t.fit now node)
  | split {t placed : Table} : (t.bucketOf node.contact.id).add? now node = none →
    t.front.length + 1 < maxBuckets → Placed now node (t.split now) placed →
    Placed now node t placed

theorem placed_place (t : Table) (now : Instant) (node : Node) :
    Placed now node t (t.place now node) := by
  fun_induction Table.place t now node with
  | case1 t i front =>
    have hHere := @Placed.here now node t
    rw [fit, modifyBucket, if_pos front] at hHere
    exact hHere
  | case2 t i last bucket added =>
    have hHere := @Placed.here now node t
    rw [fit, modifyBucket, if_neg last, added] at hHere
    exact hHere
  | case3 t i last full few ih =>
    rw [← bucketOf_of_back (Nat.le_of_not_lt last)] at full
    exact .split full few ih
  | case4 t i last full many =>
    have hHere := @Placed.here now node t
    rw [fit, modifyBucket, if_neg last, full] at hHere
    exact hHere

theorem Sorted.placed {placed : Table} (sorted : Sorted own t) (other : node.contact.id ≠ own)
    (place : Placed now node t placed) : Sorted own placed := by
  induction place with
  | here => exact sorted.fit other
  | split _ few _ ih => exact ih (sorted.split few)

theorem Sorted.place (sorted : Sorted own t) (other : node.contact.id ≠ own) :
    Sorted own (t.place now node) :=
  sorted.placed other (placed_place t now node)

theorem Sorted.add (sorted : Sorted own t) : Sorted own (t.add now node) := by
  unfold Table.add
  split
  next => exact sorted
  next absent =>
    apply sorted.place
    rw [← sorted.same]
    exact fun same => absent (.inr same)

/-! ## Everything that happens to a table -/

theorem Sorted.requested {version : Option Bytes} (sorted : Sorted own t) :
    Sorted own (t.requested now contact version) := by
  unfold Table.requested
  split
  · exact sorted.modify fun _ => rfl
  · exact sorted.add

theorem Sorted.answered {version : Option Bytes} (sorted : Sorted own t) :
    Sorted own (t.answered now contact version) := by
  unfold Table.answered
  split
  · exact sorted.modify fun _ => rfl
  · exact sorted.add

theorem Sorted.learn (sorted : Sorted own t) : Sorted own (t.learn now contact) := by
  unfold Table.learn
  split
  · exact sorted
  · exact sorted.add

theorem Sorted.learnAll {contacts : List Contact} (sorted : Sorted own t) :
    Sorted own (t.learnAll now contacts) := by
  unfold Table.learnAll
  induction contacts generalizing t with
  | nil => exact sorted
  | cons contact contacts ih =>
    apply ih
    exact sorted.learn

theorem Sorted.failed (sorted : Sorted own t) : Sorted own (t.failed contact) :=
  sorted.modify fun _ => rfl

theorem Sorted.failedAddress {address : Address} (sorted : Sorted own t) :
    Sorted own (t.failedAddress address) := by
  unfold Table.failedAddress
  split
  · exact sorted.failed
  · exact sorted

theorem buckets_removeStale (t : Table) (now : Instant) (expiry : Duration) :
    (t.removeStale now expiry).2.buckets = t.buckets.map
      (·.filter fun n => n.isPingable now && decide (now - n.lastSeen < expiry)) := by
  unfold buckets Table.removeStale
  rw [List.map_append, List.map_singleton]

theorem Sorted.removeStale {expiry : Duration} (sorted : Sorted own t) :
    Sorted own (t.removeStale now expiry).2 := by
  refine ⟨sorted.same, ?_, ?_⟩
  · have hFew := sorted.few
    unfold Table.removeStale
    rw [List.length_map]
    exact hFew
  · intro i bucket place
    rw [buckets_removeStale, List.getElem?_map] at place
    rw [buckets_removeStale, List.length_map]
    rcases Option.map_eq_some_iff.mp place with ⟨old, found, rfl⟩
    exact (sorted.inOrder i old found).sublist List.filter_sublist

/-- The tables of a node: what comes of the empty one by taking in nodes, by hearing from them and
about them, by their failures and by removing the stale ones, each at any time. -/
inductive Reachable (own : NodeId) : Table → Prop where
  | new : Reachable own { own }
  | add {t : Table} (now : Instant) (node : Node) : Reachable own t → Reachable own (t.add now node)
  | requested {t : Table} (now : Instant) (contact : Contact) (version : Option Bytes) :
    Reachable own t → Reachable own (t.requested now contact version)
  | answered {t : Table} (now : Instant) (contact : Contact) (version : Option Bytes) :
    Reachable own t → Reachable own (t.answered now contact version)
  | learnAll {t : Table} (now : Instant) (contacts : List Contact) :
    Reachable own t → Reachable own (t.learnAll now contacts)
  | failed {t : Table} (contact : Contact) : Reachable own t → Reachable own (t.failed contact)
  | failedAddress {t : Table} (address : Address) :
    Reachable own t → Reachable own (t.failedAddress address)
  | removeStale {t : Table} (now : Instant) (expiry : Duration) :
    Reachable own t → Reachable own (t.removeStale now expiry).2

theorem Reachable.sorted (reachable : Reachable own t) : Sorted own t := by
  induction reachable with
  | new => exact .new own
  | add now node _ ih => exact ih.add
  | requested now contact version _ ih => exact ih.requested
  | answered now contact version _ ih => exact ih.answered
  | learnAll now contacts _ ih => exact ih.learnAll
  | failed contact _ ih => exact ih.failed
  | failedAddress address _ ih => exact ih.failedAddress
  | removeStale now expiry _ ih => exact ih.removeStale

/-! ## The table as a whole -/

/-- A contact is found if and only if some bucket has it: there is but one bucket to look into. -/
theorem Sorted.find?_isSome_iff (sorted : Sorted own t) :
    (t.find? contact).isSome = true ↔
      ∃ bucket ∈ t.buckets, ∃ node ∈ bucket, node.contact = contact := by
  have hHome := getElem?_placement t contact.id
  rw [Table.find?, List.find?_isSome]
  constructor
  · rintro ⟨node, member, same⟩
    exact ⟨_, List.mem_of_getElem? hHome, node, member, of_decide_eq_true same⟩
  · rintro ⟨bucket, member, node, known, rfl⟩
    rcases List.getElem?_of_mem member with ⟨i, place⟩
    have hBelongs := (sorted.inOrder i bucket place).member _ (Bucket.mem_ids known)
    rw [sorted.same, hBelongs.2, place] at hHome
    rcases Option.some.inj hHome with rfl
    exact ⟨node, known, decide_eq_true rfl⟩

/-- Nodes in one bucket have distinct identifiers, and nodes in two buckets different distances. -/
theorem Sorted.nodup_ids (sorted : Sorted own t) : (t.nodes.map (·.contact.id)).Nodup := by
  rw [nodes, List.map_flatten]
  apply List.pairwise_flatten.mpr
  constructor
  · intro ids listed
    rcases List.mem_map.mp listed with ⟨bucket, member, rfl⟩
    rcases List.getElem?_of_mem member with ⟨i, place⟩
    exact (sorted.inOrder i bucket place).distinct
  · rw [List.pairwise_iff_getElem]
    intro i j hi hj before id first other second same
    rw [List.getElem_map] at first second
    rw [List.length_map] at hi hj
    have hFirst := (sorted.inOrder i _ (List.getElem?_eq_getElem hi)).member _ first
    have hSecond := (sorted.inOrder j _ (List.getElem?_eq_getElem hj)).member _ second
    have hPlaces := hFirst.2
    rw [same, hSecond.2] at hPlaces
    omega

/-- Puts a node into its bucket as `place` does, but gives up after a number of attempts. -/
def placeWithin : Nat → Table → Instant → Node → Option Table
  | 0, _, _, _ => none
  | attempts + 1, t, now, node =>
    if t.own.commonBits node.contact.id < t.front.length then
      some { t with front := t.front.modify (t.own.commonBits node.contact.id) fun bucket =>
        (bucket.add? now node).getD bucket }
    else
      match t.last.add? now node with
      | some bucket => some { t with last := bucket }
      | none =>
        if t.front.length + 1 < maxBuckets then (t.split now).placeWithin attempts now node
        else some t

/-- Every attempt but the last splits a bucket, so there are no more of them than buckets. -/
theorem placeWithin_eq_some {attempts : Nat} (few : t.front.length < maxBuckets)
    (enough : maxBuckets ≤ t.front.length + attempts) :
    t.placeWithin attempts now node = some (t.place now node) := by
  induction attempts generalizing t with
  | zero => omega
  | succ attempts ih =>
    rw [placeWithin, Table.place]
    by_cases front : t.own.commonBits node.contact.id < t.front.length
    · rw [if_pos front, if_pos front]
    · rw [if_neg front, if_neg front]
      cases t.last.add? now node with
      | some bucket => rfl
      | none =>
        dsimp only
        by_cases more : t.front.length + 1 < maxBuckets
        · rw [if_pos more, if_pos more]
          apply ih
          · rw [length_front_split]
            exact more
          · rw [length_front_split]
            omega
        · rw [if_neg more, if_neg more]

/-- Takes in a node as `add` does, but gives up after a number of attempts to place it. -/
def addWithin (attempts : Nat) (t : Table) (now : Instant) (node : Node) : Option Table :=
  if node.status now = .bad ∨ node.contact.id = t.own then some t
  else t.placeWithin attempts now node

theorem Sorted.addWithin_eq_some (sorted : Sorted own t) :
    t.addWithin 160 now node = some (t.add now node) := by
  unfold addWithin Table.add
  split
  · rfl
  · exact placeWithin_eq_some sorted.few (Nat.le_add_left _ _)

/-- What holds of every table of a node. -/
structure WellFormed (own : NodeId) (t : Table) : Prop where
  some_bucket : 1 ≤ t.buckets.length
  few_buckets : t.buckets.length ≤ 160
  few_nodes : ∀ bucket ∈ t.buckets, bucket.length ≤ 8
  distinct : (t.nodes.map (·.contact.id)).Nodup
  others : ∀ node ∈ t.nodes, node.contact.id ≠ own
  /-- A bucket that is not the last one holds the nodes with as many bits in common as its number
  says. -/
  front : ∀ (i : Nat) (bucket : Bucket), t.buckets[i]? = some bucket → i + 1 < t.buckets.length →
    ∀ node ∈ bucket, own.commonBits node.contact.id = i
  last : ∀ (i : Nat) (bucket : Bucket), t.buckets[i]? = some bucket → i + 1 = t.buckets.length →
    ∀ node ∈ bucket, i ≤ own.commonBits node.contact.id
  adds : ∀ (now : Instant) (node : Node), t.addWithin 160 now node = some (t.add now node)
  finds : ∀ contact : Contact, (t.find? contact).isSome = true ↔
    ∃ bucket ∈ t.buckets, ∃ node ∈ bucket, node.contact = contact

theorem Sorted.wellFormed (sorted : Sorted own t) : WellFormed own t where
  some_bucket := by
    rw [length_buckets]
    exact Nat.le_add_left _ _
  few_buckets := by
    rw [length_buckets]
    exact sorted.few
  few_nodes := by
    intro bucket member
    rcases List.getElem?_of_mem member with ⟨i, place⟩
    exact (sorted.inOrder i bucket place).room
  distinct := sorted.nodup_ids
  others := by
    intro node member
    rcases List.mem_flatten.mp member with ⟨bucket, filed, known⟩
    rcases List.getElem?_of_mem filed with ⟨i, place⟩
    exact ((sorted.inOrder i bucket place).member _ (Bucket.mem_ids known)).1
  front := by
    intro i bucket place front node known
    have hPlacement := ((sorted.inOrder i bucket place).member _ (Bucket.mem_ids known)).2
    unfold placement at hPlacement
    omega
  last := by
    intro i bucket place last node known
    have hPlacement := ((sorted.inOrder i bucket place).member _ (Bucket.mem_ids known)).2
    unfold placement at hPlacement
    omega
  adds := fun _ _ => sorted.addWithin_eq_some
  finds := fun _ => sorted.find?_isSome_iff

/-- Every table of a node is well formed. -/
theorem wellFormed_of_reachable {own : NodeId} {t : Table} (reachable : Reachable own t) :
    WellFormed own t :=
  reachable.sorted.wellFormed

/-- A table that was split for the last of nine nodes that were heard of, which then did not answer.
The others are all at the greatest distance. -/
def crowded : Table :=
  let far := (List.range 8).map fun (k : Nat) =>
    (⟨⟨BitVec.twoPow 160 159 + .ofNat 160 k⟩, ⟨.v4 1, .ofNat k⟩⟩ : Contact)
  (({ own := .zero } : Table).learnAll 0 (far ++ [⟨⟨1⟩, ⟨.v4 2, 1⟩⟩])).failed ⟨⟨1⟩, ⟨.v4 2, 1⟩⟩

theorem wellFormed_of_crowded :
    crowded.buckets.map List.length = [8, 1] ∧ WellFormed .zero crowded :=
  ⟨by decide +kernel, wellFormed_of_reachable (.failed _ (.learnAll 0 _ .new))⟩

end Table
end Routing
end Kademlia
