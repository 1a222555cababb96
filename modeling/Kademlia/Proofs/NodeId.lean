import Kademlia.NodeId
import Mathlib.Algebra.Group.Nat.Defs

namespace Kademlia
namespace NodeId

/-!
What the bits that two identifiers have in common say of the bits themselves, and the order of
identifiers by their distance to a target.
-/

variable {a b c target : NodeId} {n : Nat}

/-! ## Bits in common -/

theorem getMsbD_distance (a b : NodeId) (i : Nat) :
    (a.distance b).word.getMsbD i = (a.word.getMsbD i ^^ b.word.getMsbD i) := by
  rw [distance, BitVec.getMsbD_xor]

/-- The more leading zeros an identifier has, the smaller a number it is. -/
theorem le_leadingZeros_iff_lt {id : NodeId} (within : n ≤ 160) :
    n ≤ id.leadingZeros ↔ id.word.toNat < 2 ^ (160 - n) := by
  unfold leadingZeros
  by_cases zero : id.word = 0
  · rw [if_pos zero, zero]
    exact iff_of_true within (Nat.two_pow_pos _)
  · rw [if_neg zero]
    have hPositive : id.word.toNat ≠ 0 := fun same => zero (BitVec.eq_of_toNat_eq same)
    have hTop := (Nat.log2_lt hPositive (k := 160)).mpr id.word.isLt
    rw [← Nat.log2_lt hPositive]
    omega

/-- No bit is set among the leading zeros, and there is no longer run of clear bits. -/
theorem le_leadingZeros_iff {id : NodeId} (within : n ≤ 160) :
    n ≤ id.leadingZeros ↔ ∀ i < n, id.word.getMsbD i = false := by
  rw [le_leadingZeros_iff_lt within]
  constructor
  · intro small i before
    rw [BitVec.getMsbD, BitVec.getLsbD]
    have hClear : id.word.toNat.testBit (160 - 1 - i) = false := by
      apply Nat.testBit_lt_two_pow
      exact Nat.lt_of_lt_of_le small (Nat.pow_le_pow_right (by decide) (by omega))
    rw [hClear, Bool.and_false]
  · intro clear
    apply Nat.lt_pow_two_of_testBit
    intro i high
    by_cases beyond : 160 ≤ i
    · exact BitVec.getLsbD_of_ge id.word i beyond
    · have hBit := clear (159 - i) (by omega)
      rw [BitVec.getMsbD, decide_eq_true (by omega), Bool.true_and] at hBit
      rw [← hBit, BitVec.getLsbD]
      congr 1
      omega

/-- Two identifiers have at least `n` bits in common if and only if their first `n` bits agree. -/
theorem le_commonBits_iff (within : n ≤ 160) :
    n ≤ a.commonBits b ↔ ∀ i < n, a.word.getMsbD i = b.word.getMsbD i := by
  rw [commonBits, le_leadingZeros_iff within]
  constructor
  · intro clear i before
    have hClear := clear i before
    rw [getMsbD_distance] at hClear
    simpa using hClear
  · intro agree i before
    rw [getMsbD_distance, agree i before, Bool.xor_self]

/-! ## Distance -/

theorem distance_inj : target.distance a = target.distance b ↔ a = b := by
  constructor
  · intro same
    rcases a with ⟨a⟩
    rcases b with ⟨b⟩
    have hWords := congrArg (fun id => target.word ^^^ id.word) same
    simp only [distance, ← BitVec.xor_assoc, BitVec.xor_self, BitVec.zero_xor] at hWords
    rw [hWords]
  · rintro rfl
    rfl

/-- Identifiers at the same distance are equal, so that the second comparison decides nothing. -/
theorem cmpDistance_eq_compare (target a b : NodeId) :
    target.cmpDistance a b =
      compare (target.distance a).word.toNat (target.distance b).word.toNat := by
  change (compare (target.distance a).word.toNat (target.distance b).word.toNat).then
    (compare a.word.toNat b.word.toNat) = _
  cases order : compare (target.distance a).word.toNat (target.distance b).word.toNat with
  | lt => rfl
  | gt => rfl
  | eq =>
    have hDistance : target.distance a = target.distance b := by
      have hWord := BitVec.eq_of_toNat_eq (Nat.compare_eq_eq.mp order)
      exact congrArg NodeId.mk hWord
    rw [distance_inj.mp hDistance]
    exact Nat.compare_eq_eq.mpr rfl

theorem cmpDistance_eq_iff : target.cmpDistance a b = .eq ↔ a = b := by
  rw [cmpDistance_eq_compare, Nat.compare_eq_eq]
  constructor
  · intro same
    exact distance_inj.mp (congrArg NodeId.mk (BitVec.eq_of_toNat_eq same))
  · rintro rfl
    rfl

theorem cmpDistance_gt_iff : target.cmpDistance a b = .gt ↔ target.cmpDistance b a = .lt := by
  rw [cmpDistance_eq_compare, cmpDistance_eq_compare, Nat.compare_eq_gt, Nat.compare_eq_lt]

theorem cmpDistance_lt_trans (first : target.cmpDistance a b = .lt)
    (second : target.cmpDistance b c = .lt) : target.cmpDistance a c = .lt := by
  rw [cmpDistance_eq_compare, Nat.compare_eq_lt] at first second ⊢
  exact Nat.lt_trans first second

theorem ne_of_cmpDistance_lt (closer : target.cmpDistance a b = .lt) : a ≠ b := by
  intro same
  rw [cmpDistance_eq_iff.mpr same] at closer
  cases closer

end NodeId
end Kademlia
