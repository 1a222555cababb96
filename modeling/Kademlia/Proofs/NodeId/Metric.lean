import Kademlia.Proofs.NodeId
import Kademlia.Proofs.NodeId.Octets
import Mathlib.Data.Nat.Bitwise

namespace Kademlia
namespace NodeId

/-!
# Distance as a metric

Only the same identifier is at the distance zero, the way there is as far as the way back, and a
detour is never shorter, since exclusive or is addition without the carries.  Identifiers are
compared by their distances to a target octet by octet, which is the same as comparing the distances
as numbers.  That is a total order for each target (`distance_metric`).
-/

variable {a b : NodeId}

theorem xor_le_add (m n : Nat) : m ^^^ n ≤ m + n := by
  induction m using Nat.strongRecOn generalizing n with
  | ind m ih =>
    by_cases none : m = 0
    · rw [none, Nat.zero_xor, Nat.zero_add]
    · have hHalves := ih (m / 2) (Nat.div_lt_self (Nat.pos_of_ne_zero none) (by decide)) (n / 2)
      have hLowest : (m ^^^ n) % 2 = (m + n) % 2 := Nat.xor_mod_two_eq
      rw [← Nat.xor_div_two] at hHalves
      omega

theorem distance_comm (a b : NodeId) : a.distance b = b.distance a :=
  congrArg NodeId.mk (BitVec.xor_comm a.word b.word)

theorem distance_self (a : NodeId) : a.distance a = zero :=
  congrArg NodeId.mk BitVec.xor_self

theorem distance_eq_zero_iff : a.distance b = zero ↔ a = b := by
  rw [← distance_self a, distance_inj, eq_comm]

/-- On a detour, the two distances are added bit by bit. -/
theorem distance_distance (a b c : NodeId) :
    (a.distance b).distance (b.distance c) = a.distance c := by
  have hWords : (a.word ^^^ b.word) ^^^ (b.word ^^^ c.word) = a.word ^^^ c.word := by
    rw [BitVec.xor_assoc, ← BitVec.xor_assoc b.word, BitVec.xor_self, BitVec.zero_xor]
  exact congrArg NodeId.mk hWords

theorem number_distance_le (a b c : NodeId) :
    (a.distance c).number ≤ (a.distance b).number + (b.distance c).number := by
  rw [← distance_distance a b c, number_distance (a.distance b)]
  exact xor_le_add _ _

theorem cmpDistance_eq_number (target a b : NodeId) :
    target.cmpDistance a b = compare (target.distance a).number (target.distance b).number := by
  rw [number_eq_toNat, number_eq_toNat, cmpDistance_eq_compare]

instance (target : NodeId) : Std.TransCmp target.cmpDistance where
  eq_swap {a b} := by
    rw [cmpDistance_eq_number, cmpDistance_eq_number]
    exact Std.OrientedCmp.eq_swap
  isLE_trans {a b c} first second := by
    rw [cmpDistance_eq_number] at first second ⊢
    exact Std.TransCmp.isLE_trans first second

/-- The distance of identifiers is the exclusive or of their octets, and it is a metric.  By it a
target compares identifiers in a total order, octet by octet and as numbers alike; none that differ
are equally far, so that it does not matter how those would be told apart. -/
theorem distance_metric :
    (∀ target a b : NodeId,
      (target.distance a).toBytes = List.zipWith (· ^^^ ·) target.toBytes a.toBytes ∧
      target.cmpDistance a b =
        (compare (target.distance a).toBytes (target.distance b).toBytes).then
          (compare a.toBytes b.toBytes) ∧
      target.cmpDistance a b = compare (target.distance a).toBytes (target.distance b).toBytes ∧
      compare (target.distance a).toBytes (target.distance b).toBytes =
        compare (target.distance a).number (target.distance b).number) ∧
    (∀ target a b : NodeId,
      target.cmpDistance b a = (target.cmpDistance a b).swap ∧
      (target.cmpDistance a b = .eq ↔ a = b) ∧
      ∀ c, (target.cmpDistance a b).isLE → (target.cmpDistance b c).isLE →
        (target.cmpDistance a c).isLE) ∧
    ∀ a b c : NodeId,
      a.distance b = b.distance a ∧
      ((a.distance b).toBytes = List.replicate 20 0 ↔ a = b) ∧
      (a.distance c).number ≤ (a.distance b).number + (b.distance c).number := by
  refine ⟨fun target a b => ⟨toBytes_distance target a, ?_, ?_, (compare_number _ _).symm⟩,
    fun target a b => ⟨Std.OrientedCmp.eq_swap, cmpDistance_eq_iff, fun c => ?_⟩,
    fun a b c => ⟨distance_comm a b, ?_, number_distance_le a b c⟩⟩
  · rw [cmpDistance, compare_eq_toBytes, compare_eq_toBytes]
  · rw [cmpDistance_eq_number, compare_number]
  · exact Std.TransCmp.isLE_trans
  · have hZero : zero.toBytes = List.replicate 20 0 := by decide +kernel
    rw [← hZero, toBytes_injective.eq_iff, distance_eq_zero_iff]

/-- An identifier that is the smaller number may be the farther one. -/
theorem distance_metric_of_three :
    let target : NodeId := ⟨0x80⟩
    (target.cmpDistance ⟨0x81⟩ ⟨0⟩).isLE ∧ (target.cmpDistance ⟨0⟩ ⟨0x7f⟩).isLE ∧
      (target.cmpDistance ⟨0x81⟩ ⟨0x7f⟩).isLE := by
  intro target
  have hNear : (target.cmpDistance ⟨0x81⟩ ⟨0⟩).isLE := by decide
  have hFar : (target.cmpDistance ⟨0⟩ ⟨0x7f⟩).isLE := by decide
  exact ⟨hNear, hFar, (distance_metric.2.1 target _ _).2.2 _ hNear hFar⟩

end NodeId
end Kademlia
