import Kademlia.Crc32c
import Mathlib.Logic.Function.Basic

namespace Kademlia
namespace Crc32c

/-!
# What the checksum keeps apart

Moving the register is linear over the field of two elements, and nothing is lost by it: the bit
that falls out comes back at the top, since the polynomial has its highest bit set.  So a checksum
continued with one message tells from which checksum it was continued.  A message of up to four
octets is added to the register as one number, so that the checksum tells such messages apart too.
Linearity also has another side.  By how much the checksums of two messages of one length differ can
be told from the messages alone, whatever came before them (`append_xor_append`).
-/

variable {r s : BitVec 32} {message first second : Bytes}

/-! ## The register -/

theorem shift_xor (r s : BitVec 32) : shift (r ^^^ s) = shift r ^^^ shift s := by
  unfold shift
  rw [BitVec.getLsbD_xor, BitVec.ushiftRight_xor_distrib]
  cases r.getLsbD 0 <;> cases s.getLsbD 0
  · rfl
  · exact BitVec.xor_assoc ..
  · change _ ^^^ _ ^^^ polynomial = (_ ^^^ polynomial) ^^^ (s >>> 1)
    rw [BitVec.xor_assoc, BitVec.xor_assoc, BitVec.xor_comm polynomial]
  · change _ ^^^ _ = (_ ^^^ polynomial) ^^^ (_ ^^^ polynomial)
    rw [BitVec.xor_comm (s >>> 1), BitVec.xor_assoc, ← BitVec.xor_assoc polynomial,
      BitVec.xor_self, BitVec.zero_xor]

/-- The bit that falls out of the register comes back at the top. -/
theorem getLsbD_shift_top (r : BitVec 32) : (shift r).getLsbD 31 = r.getLsbD 0 := by
  have hTop : (r >>> 1).getLsbD 31 = false := by
    rw [BitVec.getLsbD_ushiftRight]
    exact BitVec.getLsbD_of_ge r (1 + 31) (by decide)
  unfold shift
  cases r.getLsbD 0 with
  | false => exact hTop
  | true =>
    rw [if_pos rfl, BitVec.getLsbD_xor, hTop]
    rfl

theorem shift_injective : Function.Injective shift := by
  intro r s same
  have hLowest : r.getLsbD 0 = s.getLsbD 0 := by
    rw [← getLsbD_shift_top, ← getLsbD_shift_top, same]
  have hOthers : r >>> 1 = s >>> 1 := by
    unfold shift at same
    rw [hLowest] at same
    cases lowest : s.getLsbD 0 with
    | false =>
      rw [lowest] at same
      exact same
    | true =>
      rw [lowest] at same
      exact (BitVec.xor_left_inj polynomial).mp same
  apply BitVec.eq_of_getLsbD_eq
  intro i _
  cases i with
  | zero => exact hLowest
  | succ i =>
    have hBit : (r >>> 1).getLsbD i = (s >>> 1).getLsbD i := by rw [hOthers]
    rw [BitVec.getLsbD_ushiftRight, BitVec.getLsbD_ushiftRight, Nat.add_comm] at hBit
    exact hBit

theorem shifts_xor (n : Nat) (r s : BitVec 32) : shifts n (r ^^^ s) = shifts n r ^^^ shifts n s := by
  induction n generalizing r s with
  | zero => rfl
  | succ n ih => rw [shifts, shifts, shifts, shift_xor, ih]

theorem shifts_injective (n : Nat) : Function.Injective (shifts n) := by
  induction n with
  | zero => exact Function.injective_id
  | succ n ih => exact ih.comp shift_injective

theorem shifts_add (m n : Nat) (r : BitVec 32) : shifts (m + n) r = shifts n (shifts m r) := by
  induction m generalizing r with
  | zero => rw [Nat.zero_add, shifts]
  | succ m ih => rw [Nat.succ_add, shifts, shifts, ih]

/-! ## Continuing a checksum -/

theorem octet_injective (b : UInt8) : Function.Injective (octet · b) := by
  intro r s same
  exact (BitVec.xor_left_inj _).mp (shifts_injective 8 same)

/-- A checksum that was continued with a message tells what it was continued from. -/
theorem append_injective (message : Bytes) : Function.Injective (append · message) := by
  have hFold : ∀ (message : Bytes), Function.Injective fun register => message.foldl octet register := by
    intro message
    induction message with
    | nil => exact Function.injective_id
    | cons b message ih => exact ih.comp (octet_injective b)
  intro r s same
  exact BitVec.not_inj.mp (hFold message (BitVec.not_inj.mp same))

/-! ## Short messages -/

/-- Bits that were moved up move down again without any of them falling out. -/
theorem shifts_shiftLeft {n : Nat} (within : n ≤ 32)
    (low : ∀ i, 32 - n ≤ i → r.getLsbD i = false) : shifts n (r <<< n) = r := by
  induction n with
  | zero => rw [shifts, BitVec.shiftLeft_zero]
  | succ n ih =>
    have hLowest : (r <<< (n + 1)).getLsbD 0 = false := by
      rw [BitVec.getLsbD_shiftLeft, decide_eq_true (Nat.succ_pos n), Bool.not_true, Bool.and_false,
        Bool.false_and]
    have hMoved : (r <<< (n + 1)) >>> 1 = r <<< n := by
      apply BitVec.eq_of_getLsbD_eq
      intro i below
      rw [BitVec.getLsbD_ushiftRight, BitVec.getLsbD_shiftLeft, BitVec.getLsbD_shiftLeft,
        show 1 + i - (n + 1) = i - n by omega]
      by_cases top : i = 31
      · have hTop : r.getLsbD (i - n) = false := low _ (by omega)
        rw [hTop, Bool.and_false, Bool.and_false]
      · rw [decide_eq_true (show 1 + i < 32 by omega), decide_eq_true below,
          show decide (1 + i < n + 1) = decide (i < n) by simp; omega]
    rw [shifts, shift, hLowest, if_neg Bool.false_ne_true, hMoved]
    exact ih (by omega) fun i far => low i (by omega)

/-- The number of a message, its first octet the lowest. -/
def number (message : Bytes) : BitVec 32 :=
  BitVec.ofNat 32 (BigEndian.decode message.reverse)

theorem toNat_number (short : message.length ≤ 4) :
    (number message).toNat = BigEndian.decode message.reverse := by
  have hBound := BigEndian.decode_lt message.reverse
  have hCapacity : ∀ n ≤ 4, BigEndian.capacity n ≤ 2 ^ 32 := by decide
  rw [List.length_reverse] at hBound
  rw [number, BitVec.toNat_ofNat]
  exact Nat.mod_eq_of_lt (Nat.lt_of_lt_of_le hBound (hCapacity _ short))

theorem number_cons (b : UInt8) (message : Bytes) :
    number (b :: message) = b.toBitVec.setWidth 32 ^^^ number message <<< 8 := by
  have hDecode : BigEndian.decode (b :: message).reverse =
      2 ^ 8 * BigEndian.decode message.reverse + b.toNat := by
    rw [List.reverse_cons, BigEndian.decode, List.foldl_append, Nat.mul_comm]
    rfl
  apply BitVec.eq_of_getLsbD_eq
  intro i below
  rw [number, hDecode, BitVec.getLsbD_ofNat, BitVec.getLsbD_xor, BitVec.getLsbD_setWidth,
    BitVec.getLsbD_shiftLeft, number, BitVec.getLsbD_ofNat, Nat.testBit_two_pow_mul_add _ b.toNat_lt]
  by_cases low : i < 8
  · simp [low, below, BitVec.getLsbD]
  · have hNone : b.toBitVec.getLsbD i = false := BitVec.getLsbD_of_ge _ i (by omega)
    simp [low, below, hNone]
    omega

/-- A short message is added to the register as one number. -/
theorem foldl_octet (short : message.length ≤ 4) (r : BitVec 32) :
    message.foldl octet r = shifts (8 * message.length) (r ^^^ number message) := by
  induction message generalizing r with
  | nil => exact (BitVec.xor_zero).symm
  | cons b message ih =>
    rw [List.length_cons] at short
    have hSmall : (number message).toNat < 2 ^ (32 - 8) := by
      have hBound := BigEndian.decode_lt message.reverse
      have hCapacity : ∀ n ≤ 3, BigEndian.capacity n ≤ 2 ^ (32 - 8) := by decide
      rw [List.length_reverse] at hBound
      rw [toNat_number (by omega)]
      exact Nat.lt_of_lt_of_le hBound (hCapacity _ (by omega))
    have hLow : ∀ i, 32 - 8 ≤ i → (number message).getLsbD i = false := by
      intro i far
      apply Nat.testBit_lt_two_pow
      exact Nat.lt_of_lt_of_le hSmall (Nat.pow_le_pow_right (by decide) far)
    calc
      (b :: message).foldl octet r
      _ = shifts (8 * message.length) (octet r b ^^^ number message) := ih (by omega) _
      _ = shifts (8 * message.length) (shifts 8 (r ^^^ number (b :: message))) := by
        rw [number_cons, ← BitVec.xor_assoc, shifts_xor 8, shifts_shiftLeft (by decide) hLow]
        rfl
      _ = shifts (8 * (b :: message).length) (r ^^^ number (b :: message)) := by
        rw [← shifts_add, List.length_cons, Nat.mul_add, Nat.add_comm]

/-- Checksums tell messages of one length apart, up to four octets. -/
theorem append_inj (checksum : BitVec 32) (short : first.length ≤ 4)
    (same_length : first.length = second.length)
    (same : append checksum first = append checksum second) : first = second := by
  have hFold := BitVec.not_inj.mp same
  rw [foldl_octet short, foldl_octet (same_length ▸ short), same_length] at hFold
  have hNumber := congrArg BitVec.toNat ((BitVec.xor_right_inj _).mp (shifts_injective _ hFold))
  rw [toNat_number short, toNat_number (same_length ▸ short)] at hNumber
  exact List.reverse_inj.mp (BigEndian.decode_inj (by simpa using same_length) hNumber)

/-! ## Messages side by side -/

theorem octet_xor (r s : BitVec 32) (b c : UInt8) :
    octet (r ^^^ s) (b ^^^ c) = octet r b ^^^ octet s c := by
  have hMoved : (r ^^^ s) ^^^ (b ^^^ c).toBitVec.setWidth 32 =
      (r ^^^ b.toBitVec.setWidth 32) ^^^ (s ^^^ c.toBitVec.setWidth 32) := by
    rw [UInt8.toBitVec_xor, BitVec.setWidth_xor]
    ac_rfl
  rw [octet, hMoved, shifts_xor]
  rfl

theorem foldl_octet_xor (same_length : first.length = second.length) (r s : BitVec 32) :
    (List.zipWith (· ^^^ ·) first second).foldl octet (r ^^^ s) =
      first.foldl octet r ^^^ second.foldl octet s := by
  induction first generalizing second r s with
  | nil =>
    rw [List.eq_nil_of_length_eq_zero same_length.symm]
    rfl
  | cons b first ih =>
    cases second with
    | nil => cases same_length
    | cons c second =>
      rw [List.zipWith_cons_cons, List.foldl_cons, octet_xor]
      exact ih (Nat.succ.inj same_length) _ _

/-- Two messages of one length that continue the same checksum lead to checksums whose difference
does not depend on it, but on the difference of the messages alone. -/
theorem append_xor_append (same_length : first.length = second.length) (checksum : BitVec 32) :
    append checksum first ^^^ append checksum second =
      (List.zipWith (· ^^^ ·) first second).foldl octet 0 := by
  have hNot : ∀ r s : BitVec 32, ~~~r ^^^ ~~~s = r ^^^ s := by grind
  rw [append, append, hNot, ← foldl_octet_xor same_length, BitVec.xor_self]
  rfl

end Crc32c
end Kademlia
