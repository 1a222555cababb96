import Kademlia.Proofs.Sequence
import Kademlia.Routing.Table

namespace Kademlia
namespace Routing

/-!
Buckets that hold what belongs into them.  Whether a bucket is in order depends on the identifiers
of its nodes only, so an operation that keeps them, or drops some, needs no further argument; what
has to be looked at is how a newcomer is taken in.
-/

variable {belongs : NodeId → Prop} {bucket changed : Bucket} {now : Instant} {newcomer : Node}

/-- The identifiers of the nodes in a bucket. -/
def Bucket.ids (bucket : Bucket) : List NodeId :=
  bucket.map (·.contact.id)

/-- A bucket has room for eight nodes, whose identifiers are distinct and belong into it. -/
structure Bucket.InOrder (belongs : NodeId → Prop) (bucket : Bucket) : Prop where
  room : bucket.length ≤ 8
  distinct : bucket.ids.Nodup
  member : ∀ id ∈ bucket.ids, belongs id

namespace Bucket

theorem mem_ids {node : Node} (known : node ∈ bucket) : node.contact.id ∈ bucket.ids :=
  List.mem_map_of_mem known

theorem InOrder.nil : InOrder belongs [] where
  room := by simp
  distinct := List.nodup_nil
  member := by simp [ids]

theorem InOrder.sublist {kept : Bucket} (inOrder : InOrder belongs bucket)
    (sublist : List.Sublist kept bucket) : InOrder belongs kept where
  room := Nat.le_trans sublist.length_le inOrder.room
  distinct := inOrder.distinct.sublist (sublist.map _)
  member := fun id known => inOrder.member id ((sublist.map _).subset known)

theorem InOrder.of_ids (inOrder : InOrder belongs bucket) (same : changed.ids = bucket.ids) :
    InOrder belongs changed where
  room := by
    have hLength : changed.length = bucket.length := by
      have hIds := congrArg List.length same
      rw [ids, ids, List.length_map, List.length_map] at hIds
      exact hIds
    rw [hLength]
    exact inOrder.room
  distinct := by
    rw [same]
    exact inOrder.distinct
  member := by
    rw [same]
    exact inOrder.member

theorem InOrder.mono {wider : NodeId → Prop} (inOrder : InOrder belongs bucket)
    (weaker : ∀ id ∈ bucket.ids, belongs id → wider id) : InOrder wider bucket where
  room := inOrder.room
  distinct := inOrder.distinct
  member := fun id known => weaker id known (inOrder.member id known)

theorem ids_modifyFirst {meets : Node → Bool} {change : Node → Node}
    (keeps : ∀ node, meets node = true → (change node).contact.id = node.contact.id) :
    ids (modifyFirst meets change bucket) = bucket.ids :=
  map_modifyFirst keeps

/-- A node that takes the place of another is the only new one. -/
theorem mem_ids_replace {meets : Node → Bool} {id : NodeId}
    (known : id ∈ ids (modifyFirst meets (fun _ => newcomer) bucket)) :
    id = newcomer.contact.id ∨ id ∈ bucket.ids := by
  rcases List.mem_map.mp known with ⟨node, member, rfl⟩
  rcases mem_modifyFirst member with old | ⟨old, among, found, rfl⟩
  · exact .inr (mem_ids old)
  · exact .inl rfl

theorem nodup_ids_replace {meets : Node → Bool} (unknown : newcomer.contact.id ∉ bucket.ids)
    (distinct : bucket.ids.Nodup) :
    (ids (modifyFirst meets (fun _ => newcomer) bucket)).Nodup := by
  induction bucket with
  | nil => exact distinct
  | cons node bucket ih =>
    have hOther : newcomer.contact.id ≠ node.contact.id := fun same =>
      unknown (List.mem_cons.mpr (.inl same))
    have hLater : newcomer.contact.id ∉ ids bucket := fun known =>
      unknown (List.mem_cons_of_mem _ known)
    have hSplit := List.nodup_cons.mp distinct
    rw [modifyFirst]
    by_cases here : meets node = true
    · rw [if_pos here]
      exact List.nodup_cons.mpr ⟨hLater, hSplit.2⟩
    · rw [if_neg here]
      apply List.nodup_cons.mpr
      refine ⟨fun again => ?_, ih hLater hSplit.2⟩
      rcases mem_ids_replace again with new | old
      · exact hOther new.symm
      · exact hSplit.1 old

/-- What is known of a node may change, but not its identifier. -/
theorem renew_id {known : Node} (same : known.contact.id = newcomer.contact.id) :
    (renew newcomer known).contact.id = known.contact.id := by
  unfold renew
  split
  · unfold Node.merge Node.withVersion
    split <;> rfl
  · exact same.symm

/-- What can come of taking in a node. -/
inductive Added (bucket : Bucket) (now : Instant) (newcomer : Node) : Bucket → Prop
  | passed : newcomer.status now = .bad → Added bucket now newcomer bucket
  | renewed : newcomer.contact.id ∈ bucket.ids → Added bucket now newcomer
    (modifyFirst (·.contact.id = newcomer.contact.id) (renew newcomer) bucket)
  | appended : newcomer.contact.id ∉ bucket.ids → bucket.length < capacity →
    Added bucket now newcomer (bucket ++ [newcomer])
  | replaced (victim : Node) : newcomer.contact.id ∉ bucket.ids → victim ∈ bucket →
    (victim.status now).worseThan (newcomer.status now) = true → Added bucket now newcomer
      (modifyFirst (·.contact = victim.contact) (fun _ => newcomer) bucket)

theorem any_id_iff {id : NodeId} : bucket.any (·.contact.id = id) = true ↔ id ∈ bucket.ids := by
  rw [List.any_eq_true, ids, List.mem_map]
  simp only [decide_eq_true_iff]

theorem added_of_add? (added : bucket.add? now newcomer = some changed) :
    Added bucket now newcomer changed := by
  unfold Bucket.add? at added
  split at added
  next bad =>
    rcases Option.some.inj added with rfl
    exact .passed bad
  next =>
    split at added
    next known =>
      rcases Option.some.inj added with rfl
      exact .renewed (any_id_iff.mp known)
    next unknown =>
      have hUnknown : newcomer.contact.id ∉ bucket.ids := fun known =>
        unknown (any_id_iff.mpr known)
      split at added
      next room =>
        rcases Option.some.inj added with rfl
        exact .appended hUnknown room
      next =>
        rcases Option.map_eq_some_iff.mp added with ⟨victim, chosen, rfl⟩
        rcases List.mem_filter.mp (mem_of_firstLeast? chosen) with ⟨member, worse⟩
        exact .replaced victim hUnknown member worse

/-- A newcomer that belongs into a bucket leaves it in order, wherever it finds a place. -/
theorem InOrder.add? (inOrder : InOrder belongs bucket) (fits : belongs newcomer.contact.id)
    (added : bucket.add? now newcomer = some changed) : InOrder belongs changed := by
  cases added_of_add? added with
  | passed => exact inOrder
  | renewed =>
    apply inOrder.of_ids
    apply ids_modifyFirst
    intro known same
    exact renew_id (of_decide_eq_true same)
  | appended unknown room =>
    refine ⟨?_, ?_, ?_⟩
    · rw [List.length_append, List.length_singleton]
      exact room
    · unfold ids
      rw [List.map_append]
      apply List.nodup_append.mpr
      refine ⟨inOrder.distinct, List.nodup_cons.mpr ⟨by simp, List.nodup_nil⟩, ?_⟩
      intro id known other single same
      rw [same, List.mem_singleton.mp single] at known
      exact unknown known
    · intro id known
      rw [ids, List.map_append, List.mem_append] at known
      rcases known with old | new
      · exact inOrder.member id old
      · rw [List.mem_singleton.mp new]
        exact fits
  | replaced victim unknown =>
    refine ⟨?_, nodup_ids_replace unknown inOrder.distinct, ?_⟩
    · rw [length_modifyFirst]
      exact inOrder.room
    · intro id known
      rcases mem_ids_replace known with new | old
      · rw [new]
        exact fits
      · exact inOrder.member id old

end Bucket
end Routing
end Kademlia
