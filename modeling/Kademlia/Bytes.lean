namespace Kademlia

/-!
Byte strings and the two ways in which numbers are written into them.  Words of a fixed width
are big-endian (`BigEndian`), counts and integers are decimal (`Decimal`).  Each writer stands
beside the reader of the same form; `BigEndian.decode_encode` and `Decimal.value_digits` say that
the readers undo the writers.
-/

/-- A string of octets. -/
abbrev Bytes := List UInt8

namespace Bytes

/-- The UTF-8 form of a text. -/
def ofString (text : String) : Bytes :=
  text.toList.flatMap String.utf8EncodeChar

/-- The first `count` pieces of `size` octets each. -/
def chunks (size : Nat) : Nat → Bytes → List Bytes
  | 0, _ => []
  | count + 1, bytes => bytes.take size :: chunks size count (bytes.drop size)

end Bytes

namespace BigEndian

/-- How many numbers fit into `width` octets. -/
def capacity : Nat → Nat
  | 0 => 1
  | width + 1 => 256 * capacity width

/-- The lowest `width` octets of a number, most significant octet first. -/
def encode : Nat → Nat → Bytes
  | 0, _ => []
  | width + 1, n => UInt8.ofNat (n / capacity width) :: encode width n

/-- The number that a string of octets denotes, most significant octet first. -/
def decode (bytes : Bytes) : Nat :=
  bytes.foldl (fun n b => n * 256 + b.toNat) 0

theorem capacity_pos (width : Nat) : 0 < capacity width := by
  induction width with
  | zero => decide
  | succ width ih => exact Nat.mul_pos (by decide) ih

@[simp]
theorem length_encode (width n : Nat) : (encode width n).length = width := by
  induction width with
  | zero => rfl
  | succ width ih => simp [encode, ih]

/-- A leading octet counts how often the octets behind it run through all their numbers. -/
theorem decode_cons (b : UInt8) (bytes : Bytes) :
    decode (b :: bytes) = b.toNat * capacity bytes.length + decode bytes := by
  have general : ∀ (rest : Bytes) (n : Nat),
      rest.foldl (fun n b => n * 256 + b.toNat) n = n * capacity rest.length + decode rest := by
    intro rest
    induction rest with
    | nil => intro n; simp [decode, capacity]
    | cons c rest ih =>
      intro n
      simp only [decode, List.foldl_cons, List.length_cons, capacity]
      rw [ih, ih (0 * 256 + c.toNat), Nat.add_mul, Nat.mul_assoc, Nat.zero_mul, Nat.zero_add,
        Nat.add_assoc]
  simpa [decode] using general bytes b.toNat

/-- A string of octets denotes one of the numbers that fit into its length. -/
theorem decode_lt (bytes : Bytes) : decode bytes < capacity bytes.length := by
  induction bytes with
  | nil => simp [decode, capacity]
  | cons b bytes ih =>
    rw [decode_cons, List.length_cons, capacity]
    have top : b.toNat < 256 := b.toNat_lt
    have := Nat.mul_le_mul_right (capacity bytes.length) (Nat.le_of_lt_succ top)
    omega

/-- Reading back a written number keeps what fits into the width. -/
@[simp]
theorem decode_encode (width n : Nat) : decode (encode width n) = n % capacity width := by
  induction width with
  | zero => simp [encode, decode, capacity, Nat.mod_one]
  | succ width ih =>
    rw [encode, decode_cons, ih, length_encode]
    have octet : (UInt8.ofNat (n / capacity width)).toNat = n / capacity width % 256 := by
      simp
    rw [octet, capacity, Nat.mul_comm 256, Nat.mod_mul, Nat.mul_comm (capacity width)]
    omega

/-- Two strings of one length that denote the same number are equal. -/
theorem decode_inj {a b : Bytes} (same_length : a.length = b.length)
    (same_value : decode a = decode b) : a = b := by
  induction a generalizing b with
  | nil => exact (List.eq_nil_of_length_eq_zero same_length.symm).symm
  | cons x a ih =>
    cases b with
    | nil => simp at same_length
    | cons y b =>
      simp only [List.length_cons, Nat.add_right_cancel_iff] at same_length
      rw [decode_cons, decode_cons, same_length] at same_value
      have ha := decode_lt a
      have hb := decode_lt b
      rw [same_length] at ha
      have high : x.toNat = y.toNat := by
        have quotient : ∀ n r, r < capacity b.length →
            (n * capacity b.length + r) / capacity b.length = n := by
          intro n r small
          rw [Nat.add_comm, Nat.add_mul_div_right _ _ (capacity_pos b.length),
            Nat.div_eq_of_lt small, Nat.zero_add]
        rw [← quotient x.toNat _ ha, same_value, quotient y.toNat _ hb]
      have head : x = y := UInt8.toNat_inj.mp high
      subst head
      rw [ih same_length (by omega)]

/-- Writing what a string of octets denotes, at its own width, gives that string. -/
theorem encode_decode (bytes : Bytes) : encode bytes.length (decode bytes) = bytes :=
  decode_inj (by simp) (by simp [Nat.mod_eq_of_lt (decode_lt bytes)])

end BigEndian

namespace Decimal

/-- The octets `0` to `9`. -/
def isDigit (b : UInt8) : Bool :=
  0x30 ≤ b && b ≤ 0x39

/-- The octet of a digit below ten. -/
def digit (n : Nat) : UInt8 :=
  UInt8.ofNat (0x30 + n)

/-- The decimal digits of a number, without leading zeros. -/
def digits (n : Nat) : Bytes :=
  if n < 10 then [digit n] else digits (n / 10) ++ [digit (n % 10)]
termination_by n

/-- The number that a run of digits denotes. -/
def value (run : Bytes) : Nat :=
  run.foldl (fun n b => n * 10 + (b.toNat - 0x30)) 0

/-- The decimal form of an integer, with a sign only below zero. -/
def ofInt : Int → Bytes
  | .ofNat n => digits n
  | .negSucc n => 0x2d :: digits (n + 1)

theorem toNat_digit {n : Nat} (small : n < 10) : (digit n).toNat = 0x30 + n := by
  simp [digit]
  omega

theorem value_append_digit (run : Bytes) {n : Nat} (small : n < 10) :
    value (run ++ [digit n]) = value run * 10 + n := by
  simp [value, List.foldl_append, toNat_digit small]

/-- Reading the digits of a number gives the number. -/
@[simp]
theorem value_digits (n : Nat) : value (digits n) = n := by
  induction n using digits.induct with
  | case1 n small => rw [digits]; simpa [small, value] using by rw [toNat_digit small]; omega
  | case2 n large ih =>
    rw [digits, if_neg large, value_append_digit _ (Nat.mod_lt n (by decide)), ih]
    omega

end Decimal

end Kademlia
