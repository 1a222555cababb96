import Kademlia.Proofs.NodeId
import Kademlia.Proofs.Routing.Entries

namespace Kademlia
namespace Routing
namespace Table

/-!
The search for the nodes closest to a target.  No two nodes of a table have the same identifier, so
that no two are equally far from anything, and sorting by distance leaves nothing to the second
comparison.  The target may be anywhere: the search does not go by buckets.
-/

variable {own target : NodeId} {t : Table} {now : Instant} {count : Nat} {meets : Contact → Bool}
  {contacts : List Contact}

/-- How far away a contact is from a target. -/
def farness (target : NodeId) (contact : Contact) : Nat :=
  (target.distance contact.id).word.toNat

/-- The given contacts are those of the table that are closest to a target, among all that are not
bad and meet a condition. -/
structure Nearest (t : Table) (now : Instant) (target : NodeId) (count : Nat)
    (meets : Contact → Bool) (found : List Contact) : Prop where
  known : ∀ contact ∈ found, meets contact = true ∧
    ∃ node ∈ t.nodes, node.contact = contact ∧ node.status now ≠ .bad
  closestFirst : found.Pairwise fun a b => farness target a < farness target b
  length : found.length =
    min count (t.nodes.countP fun node => node.status now ≠ .bad && meets node.contact)
  farther : ∀ node ∈ t.nodes, node.status now ≠ .bad → meets node.contact = true →
    node.contact ∉ found → ∀ contact ∈ found, farness target contact < farness target node.contact

/-! ## Sorting by distance -/

theorem compare_address_self (address : Address) : compare address address = .eq := by
  have hIp : compare address.ip address.ip = .eq := by
    cases address.ip with
    | v4 word => exact Nat.compare_eq_eq.mpr rfl
    | v6 word => exact Nat.compare_eq_eq.mpr rfl
  have hPort : compare address.port address.port = .eq := Std.ReflCmp.compare_self
  change (compare address.ip address.ip).then (compare address.port address.port) = .eq
  rw [hIp, hPort]
  rfl

theorem farness_eq_iff {a b : Contact} : farness target a = farness target b ↔ a.id = b.id := by
  have hEqual : target.cmpDistance a.id b.id = .eq ↔ a.id = b.id := NodeId.cmpDistance_eq_iff
  rw [NodeId.cmpDistance_eq_compare, Nat.compare_eq_eq] at hEqual
  exact hEqual

/-- Among contacts with identifiers of their own, only the distance decides. -/
theorem isLE_closer {a b : Contact} (apart : a.id = b.id → a = b) :
    (closer target a b).isLE = decide (farness target a ≤ farness target b) := by
  rw [closer, NodeId.cmpDistance_eq_compare]
  change ((compare (farness target a) (farness target b)).then _).isLE = _
  cases order : compare (farness target a) (farness target b) with
  | lt => exact (decide_eq_true (Nat.le_of_lt (Nat.compare_eq_lt.mp order))).symm
  | gt => exact (decide_eq_false (Nat.not_le_of_lt (Nat.compare_eq_gt.mp order))).symm
  | eq =>
    have hSame : a = b := apart (farness_eq_iff.mp (Nat.compare_eq_eq.mp order))
    rw [hSame, compare_address_self]
    exact (decide_eq_true (Nat.le_refl _)).symm

/-- Of contacts with identifiers of their own, the closest come first. -/
theorem pairwise_mergeSort_closer (distinct : (contacts.map (·.id)).Nodup) :
    (contacts.mergeSort fun a b => (closer target a b).isLE).Pairwise fun a b =>
      farness target a < farness target b := by
  have hFarness : (contacts.map (farness target)).Nodup := by
    rw [List.Nodup, List.pairwise_map] at distinct ⊢
    exact distinct.imp fun apart same => apart (farness_eq_iff.mp same)
  have hKeys : (contacts.mergeSort fun a b => (closer target a b).isLE).map (farness target) =
      (contacts.map (farness target)).mergeSort fun a b => decide (a ≤ b) :=
    List.map_mergeSort fun a first b second =>
      isLE_closer fun same => eq_of_nodup_map distinct first second same
  have hSorted := @List.pairwise_mergeSort Nat (fun a b => decide (a ≤ b))
    (fun a b c => by simpa using Nat.le_trans) (fun a b => by simpa using Nat.le_total a b)
    (contacts.map (farness target))
  have hDistinct := (List.mergeSort_perm (contacts.map (farness target))
    fun a b => decide (a ≤ b)).nodup_iff.mpr hFarness
  rw [← hKeys, List.pairwise_map] at hSorted
  rw [← hKeys, List.Nodup, List.pairwise_map] at hDistinct
  exact (hSorted.and hDistinct).imp fun both =>
    Nat.lt_of_le_of_ne (of_decide_eq_true both.1) both.2

/-- Of all contacts, the first ones are the closest. -/
theorem nearest_spec (distinct : (contacts.map (·.id)).Nodup) :
    (nearest target count contacts).Pairwise (fun a b => farness target a < farness target b) ∧
      ∀ contact ∈ contacts, contact ∉ nearest target count contacts →
        ∀ found ∈ nearest target count contacts, farness target found < farness target contact := by
  have hSorted := @pairwise_mergeSort_closer target contacts distinct
  rw [← List.take_append_drop count (contacts.mergeSort _), List.pairwise_append] at hSorted
  refine ⟨hSorted.1, fun contact known left found among => ?_⟩
  have hPart : contact ∈ contacts.mergeSort fun a b => (closer target a b).isLE :=
    List.mem_mergeSort.mpr known
  rw [← List.take_append_drop count (contacts.mergeSort _), List.mem_append] at hPart
  exact hSorted.2.2 found among contact (hPart.resolve_left left)

theorem length_nearest : (nearest target count contacts).length = min count contacts.length := by
  rw [nearest, List.length_take, List.length_mergeSort]

/-! ## The nodes of a table -/

/-- All contacts that come into question. -/
def eligible (t : Table) (now : Instant) (meets : Contact → Bool) : List Contact :=
  ((t.nodes.filter (·.isPingable now)).map (·.contact)).filter meets

theorem mem_eligible {contact : Contact} :
    contact ∈ t.eligible now meets ↔ meets contact = true ∧
      ∃ node ∈ t.nodes, node.contact = contact ∧ node.status now ≠ .bad := by
  rw [eligible, List.mem_filter, List.mem_map, and_comm]
  refine and_congr_right fun _ => exists_congr fun node => ?_
  rw [List.mem_filter, Node.isPingable, decide_eq_true_eq, and_assoc, and_comm (a := _ ≠ _)]

theorem length_eligible : (t.eligible now meets).length =
    t.nodes.countP fun node => node.status now ≠ .bad && meets node.contact := by
  rw [eligible, List.filter_map, List.length_map, List.filter_filter, List.countP_eq_length_filter]
  congr 2
  funext node
  exact Bool.and_comm _ _

/-- However the nodes are chosen, their identifiers are distinct. -/
theorem Sorted.nodup_filter (sorted : Sorted own t) (chosen : Node → Bool) :
    (((t.nodes.filter chosen).map (·.contact)).map (·.id)).Nodup := by
  rw [List.map_map]
  exact sorted.nodup_ids.sublist (List.filter_sublist.map _)

theorem Sorted.nodup_eligible (sorted : Sorted own t) :
    ((t.eligible now meets).map (·.id)).Nodup :=
  (sorted.nodup_filter _).sublist (List.filter_sublist.map _)

/-- The search finds the closest nodes. -/
theorem Sorted.nearest_closestWhere (sorted : Sorted own t) (now : Instant) (target : NodeId)
    (count : Nat) (meets : Contact → Bool) :
    Nearest t now target count meets (t.closestWhere now target count meets) := by
  rcases @nearest_spec target count _ (@sorted.nodup_eligible own t now meets) with
    ⟨closestFirst, farther⟩
  refine ⟨fun contact found => ?_, closestFirst, ?_, fun node member useful condition => ?_⟩
  · exact mem_eligible.mp (List.mem_mergeSort.mp (List.mem_of_mem_take found))
  · rw [← length_eligible]
    exact length_nearest
  · exact farther _ (mem_eligible.mpr ⟨condition, node, member, rfl, useful⟩)

end Table
end Routing
end Kademlia
