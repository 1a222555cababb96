import Kademlia.Proofs.Routing.WellFormed

namespace Kademlia
namespace Routing

/-!
Which contacts come into a routing table.  Nothing that happens to a table brings a contact into it
but the one that it is about: nodes move on to other buckets when one is split, and some are
dropped, but a place is given to a newcomer only.
-/

namespace Table

variable {own : NodeId} {t grown : Table} {now : Instant} {node newcomer : Node}
  {contact : Contact} {entrants : Contact → Prop}

/-- The contacts in a table. -/
def contacts (t : Table) : List Contact :=
  t.nodes.map (·.contact)

/-- What a table has become: besides those that were there, only certain contacts are in it. -/
structure Grown (entrants : Contact → Prop) (t grown : Table) : Prop where
  contacts : ∀ contact ∈ grown.contacts, contact ∈ t.contacts ∨ entrants contact
  sorted : ∀ own, Sorted own t → Sorted own grown

namespace Grown

theorem refl : Grown entrants t t where
  contacts _ known := .inl known
  sorted _ sorted := sorted

theorem trans {further : Table} (first : Grown entrants t grown)
    (second : Grown entrants grown further) : Grown entrants t further where
  contacts contact known := by
    rcases second.contacts contact known with before | entrant
    · exact first.contacts contact before
    · exact .inr entrant
  sorted own sorted := second.sorted own (first.sorted own sorted)

theorem mono {wider : Contact → Prop} (grows : Grown entrants t grown)
    (weaker : ∀ contact, entrants contact → wider contact) : Grown wider t grown where
  contacts contact known := (grows.contacts contact known).imp_right (weaker contact)
  sorted := grows.sorted

/-- It is enough to look at the nodes. -/
theorem of_nodes (sorted : ∀ own, Sorted own t → Sorted own grown)
    (nodes : ∀ node ∈ grown.nodes, node.contact ∈ t.contacts ∨ entrants node.contact) :
    Grown entrants t grown where
  contacts contact known := by
    rcases List.mem_map.mp known with ⟨node, member, rfl⟩
    exact nodes node member
  sorted := sorted

end Grown

theorem mem_contacts (member : node ∈ t.nodes) : node.contact ∈ t.contacts :=
  List.mem_map_of_mem member

theorem mem_contacts_of_closestWhere {target : NodeId} {count : Nat} {meets : Contact → Bool}
    (chosen : contact ∈ t.closestWhere now target count meets) : contact ∈ t.contacts := by
  rw [closestWhere, nearest] at chosen
  have hMeets := List.mem_mergeSort.mp (List.mem_of_mem_take chosen)
  rcases List.mem_map.mp (List.mem_filter.mp hMeets).1 with ⟨node, pingable, rfl⟩
  exact mem_contacts (List.mem_filter.mp pingable).1

theorem Sorted.ne_of_mem_contacts (sorted : Sorted own t) (known : contact ∈ t.contacts) :
    contact.id ≠ own := by
  rcases List.mem_map.mp known with ⟨node, member, rfl⟩
  exact sorted.wellFormed.others node member

/-! ## One bucket at a time -/

theorem mem_nodes_of_bucketOf {id : NodeId} (known : node ∈ t.bucketOf id) : node ∈ t.nodes :=
  List.mem_flatten.mpr ⟨_, List.mem_of_getElem? (getElem?_placement t id), known⟩

/-- A node that was not there before is one of the bucket that has changed. -/
theorem mem_nodes_modifyBucket {id : NodeId} {change : Bucket → Bucket}
    (member : node ∈ (t.modifyBucket id change).nodes) :
    node ∈ t.nodes ∨ node ∈ change (t.bucketOf id) := by
  have hHome := getElem?_placement t id
  rcases List.mem_flatten.mp member with ⟨bucket, filed, known⟩
  rcases List.getElem?_of_mem filed with ⟨i, place⟩
  rw [buckets_modifyBucket] at place
  by_cases here : placement t.own t.buckets.length id = i
  · rw [← here, List.getElem?_modify_eq, hHome] at place
    rcases Option.some.inj place with rfl
    exact .inr known
  · rw [List.getElem?_modify_ne _ _ here] at place
    exact .inl (List.mem_flatten.mpr ⟨bucket, List.mem_of_getElem? place, known⟩)

/-- What is known of a node may change without its becoming another one. -/
theorem grown_modify {change : Node → Node} (t : Table) (contact : Contact)
    (keeps : ∀ node, (change node).contact = node.contact) :
    Grown entrants t (t.modify contact change) := by
  refine .of_nodes (fun _ sorted => sorted.modify keeps) fun node member => .inl ?_
  rcases mem_nodes_modifyBucket member with known | changed
  · exact mem_contacts known
  · rcases mem_modifyFirst changed with known | ⟨old, known, -, rfl⟩
    · exact mem_contacts (mem_nodes_of_bucketOf known)
    · rw [keeps old]
      exact mem_contacts (mem_nodes_of_bucketOf known)

/-! ## Newcomers -/

theorem contact_renew (newcomer known : Node) :
    (Bucket.renew newcomer known).contact = known.contact ∨
      (Bucket.renew newcomer known).contact = newcomer.contact := by
  rw [Bucket.renew]
  split
  · rw [Node.merge, Node.withVersion]
    split
    · exact .inl rfl
    · exact .inl rfl
  · exact .inr rfl

theorem contact_of_mem_add? {bucket changed : Bucket}
    (added : bucket.add? now newcomer = some changed) (member : node ∈ changed) :
    (∃ known ∈ bucket, known.contact = node.contact) ∨ node.contact = newcomer.contact := by
  cases Bucket.added_of_add? added with
  | passed => exact .inl ⟨node, member, rfl⟩
  | renewed =>
    rcases mem_modifyFirst member with old | ⟨known, among, -, rfl⟩
    · exact .inl ⟨node, old, rfl⟩
    · exact (contact_renew newcomer known).imp_left fun same => ⟨known, among, same.symm⟩
  | appended =>
    rcases List.mem_append.mp member with old | new
    · exact .inl ⟨node, old, rfl⟩
    · exact .inr (congrArg Node.contact (List.mem_singleton.mp new))
  | replaced =>
    rcases mem_modifyFirst member with old | ⟨-, -, -, new⟩
    · exact .inl ⟨node, old, rfl⟩
    · exact .inr (congrArg Node.contact new)

theorem contact_of_mem_fit (member : node ∈ (t.fit now newcomer).nodes) :
    node.contact ∈ t.contacts ∨ node.contact = newcomer.contact := by
  rcases mem_nodes_modifyBucket member with known | changed
  · exact .inl (mem_contacts known)
  · cases added : (t.bucketOf newcomer.contact.id).add? now newcomer with
    | none =>
      rw [added, Option.getD_none] at changed
      exact .inl (mem_contacts (mem_nodes_of_bucketOf changed))
    | some bucket =>
      rw [added, Option.getD_some] at changed
      rcases contact_of_mem_add? added changed with ⟨known, among, same⟩ | new
      · rw [← same]
        exact .inl (mem_contacts (mem_nodes_of_bucketOf among))
      · exact .inr new

theorem mem_of_mem_split (member : node ∈ (t.split now).nodes) : node ∈ t.nodes := by
  have hKept : ∀ n ∈ t.last.filter (·.isPingable now), n ∈ t.nodes := by
    intro n kept
    refine List.mem_flatten.mpr ⟨t.last, ?_, (List.mem_filter.mp kept).1⟩
    exact List.mem_append_right _ (List.mem_singleton_self _)
  rcases List.mem_flatten.mp member with ⟨bucket, filed, known⟩
  rw [buckets, split, List.append_assoc] at filed
  rcases List.mem_append.mp filed with front | back
  · exact List.mem_flatten.mpr ⟨bucket, List.mem_append_left _ front, known⟩
  · rcases List.mem_cons.mp back with rfl | last
    · exact hKept node (List.mem_filter.mp known).1
    · rw [List.mem_singleton.mp last] at known
      exact hKept node (List.mem_filter.mp known).1

theorem contact_of_mem_placed {placed : Table} (place : Placed now newcomer t placed)
    (member : node ∈ placed.nodes) :
    node.contact ∈ t.contacts ∨ node.contact = newcomer.contact := by
  induction place with
  | here => exact contact_of_mem_fit member
  | split _ _ _ ih =>
    rcases ih member with known | new
    · rcases List.mem_map.mp known with ⟨old, among, same⟩
      rw [← same]
      exact .inl (mem_contacts (mem_of_mem_split among))
    · exact .inr new

theorem grown_add (t : Table) (now : Instant) (newcomer : Node) :
    Grown (· = newcomer.contact) t (t.add now newcomer) := by
  refine .of_nodes (fun _ => Sorted.add) fun node member => ?_
  rw [Table.add] at member
  split at member
  · exact .inl (mem_contacts member)
  · exact contact_of_mem_placed (placed_place t now newcomer) member

/-! ## Everything that happens to a table -/

theorem grown_requested (t : Table) (now : Instant) (contact : Contact) (version : Option Bytes) :
    Grown (· = contact) t (t.requested now contact version) := by
  rw [Table.requested]
  split
  · exact grown_modify t contact fun _ => rfl
  · exact grown_add t now ((Node.good now contact).withVersion version)

theorem grown_answered (t : Table) (now : Instant) (contact : Contact) (version : Option Bytes) :
    Grown (· = contact) t (t.answered now contact version) := by
  rw [Table.answered]
  split
  · exact grown_modify t contact fun _ => rfl
  · exact grown_add t now ((Node.good now contact).withVersion version)

theorem grown_learn (t : Table) (now : Instant) (contact : Contact) :
    Grown (· = contact) t (t.learn now contact) := by
  rw [Table.learn]
  split
  · exact .refl
  · exact grown_add t now (.questionable now contact)

theorem grown_learnAll (t : Table) (now : Instant) (contacts : List Contact) :
    Grown (· ∈ contacts) t (t.learnAll now contacts) := by
  rw [Table.learnAll]
  induction contacts generalizing t with
  | nil => exact .refl
  | cons contact contacts ih =>
    refine ((grown_learn t now contact).mono ?_).trans ((ih _).mono ?_)
    · rintro _ rfl
      exact List.mem_cons_self
    · exact fun _ => List.mem_cons_of_mem contact

theorem grown_failedAddress (t : Table) (address : Address) :
    Grown entrants t (t.failedAddress address) := by
  rw [Table.failedAddress]
  split
  · exact grown_modify t _ fun _ => rfl
  · exact .refl

theorem grown_removeStale (t : Table) (now : Instant) (expiry : Duration) :
    Grown entrants t (t.removeStale now expiry).2 := by
  refine .of_nodes (fun _ => Sorted.removeStale) fun node member => .inl ?_
  rcases List.mem_flatten.mp member with ⟨bucket, filed, known⟩
  rw [buckets_removeStale] at filed
  rcases List.mem_map.mp filed with ⟨old, among, rfl⟩
  exact mem_contacts (List.mem_flatten.mpr ⟨old, among, (List.mem_filter.mp known).1⟩)

end Table
end Routing
end Kademlia
