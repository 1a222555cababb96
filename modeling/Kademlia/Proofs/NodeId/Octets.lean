import Kademlia.NodeId
import Mathlib.Algebra.Group.Nat.Defs

namespace Kademlia

/-!
# Numbers octet by octet

What is done to a number bit by bit is done to its octets one by one, and of two strings of one
length the one that comes first denotes the smaller number.  So identifiers may be added and
compared as words although they are sent as octets, and the bits of an identifier are those of its
octets, each from the top.
-/

/-- A bit of a string of octets, counted from the top of the first one.  Behind the last octet all
bits are clear. -/
def Bytes.bit (bytes : Bytes) (i : Nat) : Bool :=
  (bytes.getD (i / 8) 0).toNat.testBit (7 - i % 8)

/-- How many bits of an octet are clear before the first set one. -/
def Bytes.clearBits (octet : UInt8) : Nat :=
  if octet = 0 then 8 else 7 - octet.toNat.log2

/-- How many bits of a string of octets are clear before the first set one: the count ends with the
first octet that is not zero. -/
def Bytes.leadingZeros : Bytes → Nat
  | [] => 0
  | octet :: bytes => clearBits octet + if octet = 0 then leadingZeros bytes else 0

/-- The octets with one bit turned over, if one of them has it. -/
def Bytes.flipBit? (bytes : Bytes) (index : Nat) : Option Bytes :=
  bytes[index / 8]?.map fun octet =>
    bytes.set (index / 8) (octet ^^^ (1 <<< UInt8.ofNat (7 - index % 8)))

theorem Bytes.bit_flipBit? {bytes flipped : Bytes} {index : Nat}
    (turned : bytes.flipBit? index = some flipped) (j : Nat) :
    flipped.bit j = (bytes.bit j ^^ decide (j = index)) := by
  rcases Option.map_eq_some_iff.mp turned with ⟨octet, here, rfl⟩
  have hInside := (List.getElem?_eq_some_iff.mp here).1
  rw [bit, bit, List.getD_eq_getElem?_getD, List.getElem?_set, List.getD_eq_getElem?_getD]
  by_cases same : index / 8 = j / 8
  · have hMask : ∀ place : Fin 8, ((1 : UInt8) <<< UInt8.ofNat place).toNat = 2 ^ place.val := by
      decide
    have hPlace : 7 - index % 8 = 7 - j % 8 ↔ j = index := by omega
    rw [if_pos same, if_pos hInside, ← same, here, Option.getD_some, Option.getD_some,
      UInt8.toNat_xor, Nat.testBit_xor, hMask ⟨7 - index % 8, by omega⟩, Nat.testBit_two_pow]
    simp only [hPlace]
  · have hOther : j ≠ index := fun equal => same (congrArg (· / 8) equal.symm)
    rw [if_neg same, decide_eq_false hOther, Bool.xor_false]

namespace BigEndian

variable {a b : Bytes} {i : Nat}

theorem capacity_eq_two_pow (width : Nat) : capacity width = 2 ^ (8 * width) := by
  induction width with
  | zero => rfl
  | succ width ih => rw [capacity, ih, Nat.mul_succ, Nat.pow_add, Nat.mul_comm]

theorem decode_cons_eq (octet : UInt8) (bytes : Bytes) :
    decode (octet :: bytes) = 2 ^ (8 * bytes.length) * octet.toNat + decode bytes := by
  rw [decode_cons, capacity_eq_two_pow, Nat.mul_comm]

theorem decode_lt_two_pow (bytes : Bytes) : decode bytes < 2 ^ (8 * bytes.length) := by
  rw [← capacity_eq_two_pow]
  exact decode_lt bytes

theorem testBit_decode_cons (octet : UInt8) (bytes : Bytes) (i : Nat) :
    (decode (octet :: bytes)).testBit i =
      if i < 8 * bytes.length then (decode bytes).testBit i
      else octet.toNat.testBit (i - 8 * bytes.length) := by
  rw [decode_cons_eq, Nat.testBit_two_pow_mul_add _ (decode_lt_two_pow bytes)]

/-- The bits of a number from the top are those of its octets. -/
theorem testBit_decode (bytes : Bytes) (within : i < 8 * bytes.length) :
    (decode bytes).testBit (8 * bytes.length - 1 - i) = bytes.bit i := by
  induction bytes generalizing i with
  | nil => cases within
  | cons octet bytes ih =>
    rw [List.length_cons, Nat.mul_succ] at within ⊢
    rw [testBit_decode_cons]
    by_cases first : i < 8
    · have hPlace : 8 * bytes.length + 8 - 1 - i - 8 * bytes.length = 7 - i % 8 := by omega
      rw [if_neg (by omega), hPlace, Bytes.bit, Nat.div_eq_of_lt first]
      rfl
    · have hPlace : 8 * bytes.length + 8 - 1 - i = 8 * bytes.length - 1 - (i - 8) := by omega
      have hOctet : i / 8 = (i - 8) / 8 + 1 := by omega
      have hBit : i % 8 = (i - 8) % 8 := by omega
      rw [if_pos (by omega), hPlace, ih (by omega), Bytes.bit, Bytes.bit, hOctet, hBit]
      rfl

theorem decode_xor (same_length : a.length = b.length) :
    decode (List.zipWith (· ^^^ ·) a b) = decode a ^^^ decode b := by
  induction a generalizing b with
  | nil =>
    rw [List.eq_nil_of_length_eq_zero same_length.symm]
    rfl
  | cons x a ih =>
    cases b with
    | nil => cases same_length
    | cons y b =>
      have hLength := Nat.succ.inj same_length
      apply Nat.eq_of_testBit_eq
      intro i
      rw [List.zipWith_cons_cons, Nat.testBit_xor, testBit_decode_cons, testBit_decode_cons,
        testBit_decode_cons, ih hLength, List.length_zipWith, ← hLength, Nat.min_self]
      split
      · exact Nat.testBit_xor ..
      · rw [UInt8.toNat_xor, Nat.testBit_xor]

/-- Strings of one length compare as the numbers that they denote. -/
theorem compare_decode (same_length : a.length = b.length) :
    compare (decode a) (decode b) = compare a b := by
  induction a generalizing b with
  | nil =>
    rw [List.eq_nil_of_length_eq_zero same_length.symm]
    rfl
  | cons x a ih =>
    cases b with
    | nil => cases same_length
    | cons y b =>
      have hLength := Nat.succ.inj same_length
      have hFirst := decode_lt a
      have hSecond := decode_lt b
      rw [hLength] at hFirst
      rw [List.compare_cons_cons, ← ih hLength, decode_cons, decode_cons, hLength]
      -- a leading octet outweighs all that may stand behind it
      cases order : compare x y with
      | lt =>
        have hMore : (x.toNat + 1) * capacity b.length ≤ y.toNat * capacity b.length :=
          Nat.mul_le_mul_right _ (Std.compare_eq_lt.mp order)
        rw [Nat.succ_mul] at hMore
        exact Nat.compare_eq_lt.mpr (by omega)
      | gt =>
        have hMore : (y.toNat + 1) * capacity b.length ≤ x.toNat * capacity b.length :=
          Nat.mul_le_mul_right _ (Std.compare_eq_gt.mp order)
        rw [Nat.succ_mul] at hMore
        exact Nat.compare_eq_gt.mpr (by omega)
      | eq =>
        rw [Std.LawfulEqOrd.eq_of_compare order, Nat.compare_eq_ite_lt, Nat.compare_eq_ite_lt]
        simp only [Nat.add_lt_add_iff_left]
        rfl

/-- A leading octet that is not zero has the highest bit of the number. -/
theorem log2_decode_cons {octet : UInt8} (some_set : octet ≠ 0) (bytes : Bytes) :
    (decode (octet :: bytes)).log2 = 8 * bytes.length + octet.toNat.log2 := by
  have hOctet : octet.toNat ≠ 0 := fun none => some_set (UInt8.toNat_inj.mp none)
  have hRest := decode_lt_two_pow bytes
  have hLow := Nat.mul_le_mul_left (2 ^ (8 * bytes.length)) (Nat.log2_self_le hOctet)
  have hHigh : 2 ^ (8 * bytes.length) * (octet.toNat + 1) ≤
      2 ^ (8 * bytes.length) * 2 ^ (octet.toNat.log2 + 1) :=
    Nat.mul_le_mul_left _ Nat.lt_log2_self
  have hPositive : 0 < 2 ^ (8 * bytes.length) * octet.toNat :=
    Nat.mul_pos (Nat.two_pow_pos _) (Nat.pos_of_ne_zero hOctet)
  rw [Nat.mul_succ] at hHigh
  rw [decode_cons_eq, Nat.log2_eq_iff (by omega), Nat.add_assoc, Nat.pow_add, Nat.pow_add]
  omega

/-- Leading zeros can be counted octet by octet. -/
theorem leadingZeros_eq (bytes : Bytes) : bytes.leadingZeros =
    if decode bytes = 0 then 8 * bytes.length else 8 * bytes.length - 1 - (decode bytes).log2 := by
  induction bytes with
  | nil => rfl
  | cons octet bytes ih =>
    rw [Bytes.leadingZeros, Bytes.clearBits, List.length_cons, Nat.mul_succ]
    by_cases clear : octet = 0
    · have hNumber : decode (octet :: bytes) = decode bytes := by
        rw [decode_cons, clear, UInt8.toNat_zero, Nat.zero_mul, Nat.zero_add]
      rw [if_pos clear, if_pos clear, ih, hNumber]
      by_cases none : decode bytes = 0
      · rw [if_pos none, if_pos none, Nat.add_comm]
      · have hWithin := (Nat.log2_lt none).mpr (decode_lt_two_pow bytes)
        rw [if_neg none, if_neg none]
        omega
    · have hOctet : octet.toNat ≠ 0 := fun none => clear (UInt8.toNat_inj.mp none)
      have hTop := (Nat.log2_lt hOctet (k := 8)).mpr octet.toNat_lt
      have hNumber : decode (octet :: bytes) ≠ 0 := by
        have hPositive := Nat.mul_pos (Nat.pos_of_ne_zero hOctet) (capacity_pos bytes.length)
        rw [decode_cons]
        omega
      rw [if_neg clear, if_neg clear, if_neg hNumber, log2_decode_cons clear]
      omega

end BigEndian

namespace NodeId

variable {a b : NodeId}

/-- The number that the octets of an identifier denote. -/
def number (id : NodeId) : Nat :=
  BigEndian.decode id.toBytes

theorem number_eq_toNat (id : NodeId) : id.number = id.word.toNat := by
  rw [number, toBytes, BigEndian.decode_encode]
  exact Nat.mod_eq_of_lt id.word.isLt

theorem toBytes_injective : Function.Injective toBytes := by
  intro a b same
  have hRead := congrArg ofBytes? same
  rw [ofBytes?_toBytes, ofBytes?_toBytes] at hRead
  exact Option.some.inj hRead

theorem number_distance (a b : NodeId) : (a.distance b).number = a.number ^^^ b.number := by
  rw [number_eq_toNat, number_eq_toNat, number_eq_toNat, distance, BitVec.toNat_xor]

/-- The distance of two identifiers is the exclusive or of their octets. -/
theorem toBytes_distance (a b : NodeId) :
    (a.distance b).toBytes = List.zipWith (· ^^^ ·) a.toBytes b.toBytes := by
  apply BigEndian.decode_inj
  · simp
  · rw [BigEndian.decode_xor (by simp)]
    exact number_distance a b

theorem compare_number (a b : NodeId) :
    compare a.number b.number = compare a.toBytes b.toBytes :=
  BigEndian.compare_decode (by simp)

theorem compare_eq_toBytes (a b : NodeId) : compare a b = compare a.toBytes b.toBytes := by
  rw [← compare_number, number_eq_toNat, number_eq_toNat]
  rfl

theorem leadingZeros_toBytes (id : NodeId) : id.toBytes.leadingZeros = id.leadingZeros := by
  have hZero : id.word.toNat = 0 ↔ id.word = 0 :=
    ⟨fun none => BitVec.eq_of_toNat_eq none, fun none => congrArg BitVec.toNat none⟩
  rw [BigEndian.leadingZeros_eq, length_toBytes]
  change (if id.number = 0 then 8 * 20 else 8 * 20 - 1 - id.number.log2) = _
  rw [number_eq_toNat, leadingZeros]
  simp only [hZero]

/-- A bit of the octets of an identifier. -/
def bit (id : NodeId) (i : Nat) : Bool :=
  id.toBytes.bit i

theorem bit_eq_getMsbD (id : NodeId) (i : Nat) : id.bit i = id.word.getMsbD i := by
  by_cases within : i < 160
  · have hBit := BigEndian.testBit_decode id.toBytes (i := i) (by rw [length_toBytes]; exact within)
    rw [length_toBytes] at hBit
    rw [bit, ← hBit, BitVec.getMsbD, decide_eq_true within, Bool.true_and, BitVec.getLsbD,
      ← number_eq_toNat]
    rfl
  · have hOctets : id.toBytes.length ≤ i / 8 := by
      rw [length_toBytes]
      omega
    rw [bit, Bytes.bit, List.getD_eq_getElem?_getD, List.getElem?_eq_none hOctets, BitVec.getMsbD,
      decide_eq_false within]
    exact Nat.zero_testBit _

theorem eq_of_bit (bits : ∀ i, a.bit i = b.bit i) : a = b := by
  have hWords : a.word = b.word := by
    refine BitVec.eq_of_getMsbD_eq fun i _ => ?_
    rw [← bit_eq_getMsbD, ← bit_eq_getMsbD, bits]
  exact congrArg NodeId.mk hWords

end NodeId
end Kademlia
