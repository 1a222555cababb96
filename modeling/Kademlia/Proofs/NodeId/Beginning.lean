import Kademlia.Proofs.NodeId
import Kademlia.Proofs.NodeId.Octets
import Mathlib.Order.Bounds.Basic

namespace Kademlia
namespace NodeId

/-!
# Common beginnings

How many bits two identifiers have in common is how long a beginning they share, bit for bit.
Turning one bit over changes that bit alone, so that what is shared with the result ends there.  A
longer common beginning means a shorter distance, since the first bit that differs outweighs all
behind it (`beginning_commonBits`).
-/

variable {own a b : NodeId}

theorem commonBits_le (a b : NodeId) : a.commonBits b ≤ 160 := by
  unfold commonBits leadingZeros
  split
  · exact Nat.le_refl _
  · omega

/-- The bits in common can be counted octet by octet. -/
theorem commonBits_eq_octets (a b : NodeId) :
    a.commonBits b = Bytes.leadingZeros (List.zipWith (· ^^^ ·) a.toBytes b.toBytes) := by
  rw [← toBytes_distance, leadingZeros_toBytes, commonBits]

/-- The bits in common are the longest beginning on which two identifiers agree. -/
theorem isGreatest_commonBits (a b : NodeId) :
    IsGreatest {n | n ≤ 160 ∧ ∀ i < n, a.bit i = b.bit i} (a.commonBits b) := by
  simp only [bit_eq_getMsbD]
  constructor
  · have hBound := commonBits_le a b
    exact ⟨hBound, (le_commonBits_iff hBound).mp (Nat.le_refl _)⟩
  · rintro n ⟨bound, agree⟩
    exact (le_commonBits_iff bound).mpr agree

/-! ## Turning a bit over -/

theorem bit_flipBit (a : NodeId) (i : Fin 160) (j : Nat) :
    (a.flipBit i).bit j = (a.bit j ^^ decide (j = i)) := by
  have hPlace : 160 - (159 - i.val) - 1 = i.val := by omega
  rw [bit_eq_getMsbD, bit_eq_getMsbD, flipBit, BitVec.getMsbD_xor, BitVec.getMsbD_twoPow,
    decide_eq_true (show 159 - i.val < 160 by omega), Bool.true_and, hPlace]

theorem flipBit_flipBit (a : NodeId) (i : Fin 160) : (a.flipBit i).flipBit i = a := by
  rw [flipBit, flipBit, BitVec.xor_assoc, BitVec.xor_self, BitVec.xor_zero]

theorem flipBit_comm (a : NodeId) (i j : Fin 160) :
    (a.flipBit i).flipBit j = (a.flipBit j).flipBit i := by
  rw [flipBit, flipBit, flipBit, flipBit, BitVec.xor_assoc, BitVec.xor_assoc,
    BitVec.xor_comm (BitVec.twoPow 160 (159 - i))]

/-- An identifier and the one with a bit turned over part at that bit. -/
theorem commonBits_flipBit (a : NodeId) (i : Fin 160) : a.commonBits (a.flipBit i) = i := by
  refine IsGreatest.unique (isGreatest_commonBits a (a.flipBit i)) ⟨⟨Nat.le_of_lt i.isLt, ?_⟩, ?_⟩
  · intro j before
    rw [bit_flipBit, decide_eq_false (Nat.ne_of_lt before), Bool.xor_false]
  · rintro n ⟨-, agree⟩
    refine Nat.le_of_not_lt fun beyond => ?_
    have hBit := agree i beyond
    rw [bit_flipBit, decide_eq_true rfl, Bool.xor_true] at hBit
    exact Bool.not_ne_self _ hBit.symm

/-- The identifier with one bit of its octets turned over, if it has that bit. -/
def flipBit? (id : NodeId) (index : Nat) : Option NodeId :=
  id.toBytes.flipBit? index >>= ofBytes?

/-- The octets have the bits of the word, and no others. -/
theorem flipBit?_eq_some_iff {id flipped : NodeId} {index : Nat} :
    id.flipBit? index = some flipped ↔
      ∃ inside : index < 160, id.flipBit ⟨index, inside⟩ = flipped := by
  by_cases inside : index < 160
  · have hOctet : index / 8 < id.toBytes.length := by
      rw [length_toBytes]
      omega
    obtain ⟨bytes, turned⟩ : ∃ bytes, id.toBytes.flipBit? index = some bytes :=
      ⟨_, congrArg (Option.map _) (List.getElem?_eq_getElem hOctet)⟩
    have hLength : bytes.length = width := by
      rcases Option.map_eq_some_iff.mp turned with ⟨_, -, rfl⟩
      rw [List.length_set, length_toBytes, width]
    have hRead : ofBytes? bytes = some (id.flipBit ⟨index, inside⟩) := by
      have hAccepted : ofBytes? bytes = some _ := if_pos hLength
      rw [hAccepted]
      refine congrArg some (eq_of_bit fun i => ?_)
      rw [bit, toBytes_of_ofBytes? hAccepted, Bytes.bit_flipBit? turned, bit_flipBit]
      rfl
    rw [flipBit?, turned, Option.bind_eq_bind, Option.bind_some, hRead, Option.some_inj]
    constructor
    · intro same
      exact ⟨inside, same⟩
    · rintro ⟨_, same⟩
      exact same
  · have hNone : id.toBytes[index / 8]? = none := by
      rw [List.getElem?_eq_none_iff, length_toBytes]
      omega
    rw [flipBit?, Bytes.flipBit?, hNone]
    constructor
    · intro impossible
      cases impossible
    · rintro ⟨within, -⟩
      exact absurd within inside

/-! ## Closeness -/

/-- Who shares the longer beginning is closer. -/
theorem cmpDistance_of_commonBits_lt (longer : own.commonBits b < own.commonBits a) :
    own.cmpDistance a b = .lt := by
  have hBound := commonBits_le own a
  have hNear := (le_leadingZeros_iff_lt hBound).mp (Nat.le_refl (own.distance a).leadingZeros)
  have hFar := mt (le_leadingZeros_iff_lt hBound).mpr (Nat.not_le_of_lt longer)
  rw [cmpDistance_eq_compare]
  exact Nat.compare_eq_lt.mpr (Nat.lt_of_lt_of_le hNear (Nat.le_of_not_lt hFar))

/-- The bits in common, counted octet by octet, are the longest beginning that two identifiers share.
A bit turned over is the only one that changes; turned over again it is as before, and the order of
two such changes does not matter; an identifier shares with the result what stands before that bit.
Of two identifiers the one that shares the longer beginning with a third is strictly closer to
it. -/
theorem beginning_commonBits :
    (∀ a b : NodeId,
      a.commonBits b = Bytes.leadingZeros (List.zipWith (· ^^^ ·) a.toBytes b.toBytes) ∧
      IsGreatest {n | n ≤ 160 ∧ ∀ i < n, a.bit i = b.bit i} (a.commonBits b)) ∧
    (∀ (a : NodeId) (i : Fin 160),
      (∀ j, (a.flipBit i).bit j = (a.bit j ^^ decide (j = i))) ∧
      (a.flipBit i).flipBit i = a ∧
      (∀ j, (a.flipBit i).flipBit j = (a.flipBit j).flipBit i) ∧
      a.commonBits (a.flipBit i) = i) ∧
    ∀ own a b : NodeId, own.commonBits b < own.commonBits a → own.cmpDistance a b = .lt := by
  refine ⟨fun a b => ⟨commonBits_eq_octets a b, isGreatest_commonBits a b⟩, fun a i => ?_,
    fun own a b => cmpDistance_of_commonBits_lt⟩
  exact ⟨bit_flipBit a i, flipBit_flipBit a i, flipBit_comm a i, commonBits_flipBit a i⟩

/-- The one that is closer here is the greater number. -/
theorem beginning_commonBits_of_greater :
    let own : NodeId := ⟨0xc0⟩
    own.commonBits ⟨0x7f⟩ < own.commonBits ⟨0x80⟩ ∧ own.cmpDistance ⟨0x80⟩ ⟨0x7f⟩ = .lt := by
  intro own
  have hLonger : own.commonBits ⟨0x7f⟩ < own.commonBits ⟨0x80⟩ := by decide +kernel
  exact ⟨hLonger, beginning_commonBits.2.2 own _ _ hLonger⟩

end NodeId
end Kademlia
