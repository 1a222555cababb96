import Kademlia.Proofs.Bencode.Dictionary
import Mathlib.Data.List.Induction

namespace Kademlia
namespace Bencode

/-!
# The texts that are read as a value

A value is written in one way, but it may be read from others: the length of a byte string may have
zeros in front of it that the writer leaves out, as long as it has at most ten digits.  There is no
other freedom.  Numerals are read without leading zeros only, and nothing may stand between the
parts of a value.

`Padded` says of a text that it is the written form of a value but for a number of such zeros, over
all byte strings and keys inside it.  The texts that are read as a value are exactly its padded
forms, given that the value itself may be read (`decode_eq_ok_iff_padded`).  Reading a text and
writing down what was read therefore gives the text again if and only if no length in it is padded,
and otherwise a shorter one.
-/

/-! ## Padded forms -/

/-- The text of a byte string, with a number of zeros in front of its length. -/
def PaddedBytes (zeros : Nat) (text content : Bytes) : Prop :=
  text = List.replicate zeros 0x30 ++ encodeBytes content ∧
    zeros + (Decimal.digits content.length).length ≤ 10

mutual

/-- The text of a value, with a number of zeros in front of the lengths inside it. -/
inductive Padded : Nat → Bytes → Value → Prop where
  | integer (number : Int64) : Padded 0 (encodeInteger number) (.integer number)
  | bytes {zeros : Nat} {text content : Bytes} (string : PaddedBytes zeros text content) :
      Padded zeros text (.bytes content)
  | list {zeros : Nat} {text : Bytes} {items : List Value} (inner : PaddedItems zeros text items) :
      Padded zeros (Mark.list :: (text ++ [Mark.close])) (.list items)
  | dict {zeros : Nat} {text : Bytes} {entries : List (Bytes × Value)}
      (inner : PaddedEntries zeros text entries) :
      Padded zeros (Mark.dict :: (text ++ [Mark.close])) (.dict entries)

/-- The texts of values one after another. -/
inductive PaddedItems : Nat → Bytes → List Value → Prop where
  | nil : PaddedItems 0 [] []
  | cons {zeros more : Nat} {first rest : Bytes} {item : Value} {items : List Value}
      (head : Padded zeros first item) (tail : PaddedItems more rest items) :
      PaddedItems (zeros + more) (first ++ rest) (item :: items)

/-- The texts of keys and values one after another. -/
inductive PaddedEntries : Nat → Bytes → List (Bytes × Value) → Prop where
  | nil : PaddedEntries 0 [] []
  | cons {few zeros more : Nat} {first second rest key : Bytes} {value : Value}
      {entries : List (Bytes × Value)} (name : PaddedBytes few first key)
      (head : Padded zeros second value) (tail : PaddedEntries more rest entries) :
      PaddedEntries (few + (zeros + more)) (first ++ (second ++ rest)) ((key, value) :: entries)

end

/-! ## Digits -/

theorem exists_digit {b : UInt8} (digit : Decimal.isDigit b = true) :
    ∃ n, n < 10 ∧ b = Decimal.digit n := by
  simp only [Decimal.isDigit, Bool.and_eq_true, decide_eq_true_eq, UInt8.le_iff_toNat_le] at digit
  have hLow : 48 ≤ b.toNat := digit.1
  have hHigh : b.toNat ≤ 57 := digit.2
  refine ⟨b.toNat - 48, by omega, UInt8.toNat_inj.mp ?_⟩
  rw [Decimal.toNat_digit (by omega)]
  omega

/-- A run of digits is the decimal form of its value behind some zeros. -/
theorem exists_zeros {run : Bytes} (digits : Digits run) (some_digit : run ≠ []) :
    ∃ zeros, run = List.replicate zeros 0x30 ++ Decimal.digits (Decimal.value run) := by
  induction run using List.reverseRecOn with
  | nil => exact absurd rfl some_digit
  | append_singleton run b ih =>
    rcases exists_digit (digits b (by simp)) with ⟨n, small, rfl⟩
    rw [Decimal.value_append_digit run small]
    by_cases empty : run = []
    · subst empty
      refine ⟨0, ?_⟩
      have hValue : Decimal.value [] * 10 + n = n := by
        rw [show Decimal.value [] = 0 from rfl, Nat.zero_mul, Nat.zero_add]
      rw [hValue, digits_of_lt small]
      rfl
    rcases ih (fun c member => digits c (List.mem_append_left _ member)) empty with ⟨zeros, hRun⟩
    by_cases zero : Decimal.value run = 0
    · -- all digits so far are zeros, the one that zero itself is written with among them
      refine ⟨zeros + 1, ?_⟩
      rw [zero, digits_of_lt (by decide)] at hRun
      rw [zero, Nat.zero_mul, Nat.zero_add, digits_of_lt small, List.replicate_succ', hRun]
      rfl
    · refine ⟨zeros, ?_⟩
      have hSplit : Decimal.digits (Decimal.value run * 10 + n) =
          Decimal.digits (Decimal.value run) ++ [Decimal.digit n] := by
        rw [Decimal.digits, if_neg (by omega)]
        congr 2
        · omega
        · congr 1
          omega
      rw [hSplit, ← List.append_assoc, ← hRun]

/-- Digits of which the first is not zero are the decimal form of their value. -/
theorem digits_value {first : UInt8} {run : Bytes} (digits : Digits (first :: run))
    (significant : first ≠ 0x30) :
    Decimal.digits (Decimal.value (first :: run)) = first :: run := by
  rcases exists_zeros digits (List.cons_ne_nil first run) with ⟨zeros, hRun⟩
  cases zeros with
  | zero => exact hRun.symm
  | succ zeros => exact absurd (List.cons.inj hRun).1 significant

theorem value_replicate_append (zeros : Nat) (run : Bytes) :
    Decimal.value (List.replicate zeros 0x30 ++ run) = Decimal.value run := by
  induction zeros with
  | zero => rfl
  | succ zeros ih => exact ih

/-! ## The parts -/

/-- An integer has one numeral only. -/
theorem Numeral.eq_ofInt {text : Bytes} {n : Int} (numeral : Numeral text n) :
    text = Decimal.ofInt n := by
  cases numeral with
  | zero => exact (digits_of_lt (n := 0) (by decide)).symm
  | positive digits significant => exact (digits_value digits significant).symm
  | @negative first run digits significant =>
    have hDigits := digits_value digits significant
    cases hValue : Decimal.value (first :: run) with
    | zero =>
      rw [hValue, digits_of_lt (by decide)] at hDigits
      exact absurd (List.cons.inj hDigits).1.symm significant
    | succ n =>
      rw [hValue] at hDigits
      show _ = Mark.minus :: Decimal.digits (n + 1)
      rw [hDigits]

theorem byteString_iff_padded {text content : Bytes} :
    ByteString text content ↔
      content.length ≤ 2147483647 ∧ ∃ zeros, PaddedBytes zeros text content := by
  constructor
  · rintro ⟨digits, some_digit, few_digits, length, short⟩
    rename_i run
    rcases exists_zeros digits (List.length_pos_iff.mp some_digit) with ⟨zeros, hRun⟩
    rw [length] at hRun
    refine ⟨short, zeros, ?_, ?_⟩
    · rw [encodeBytes, ← List.append_assoc, ← hRun]
    · rw [hRun, List.length_append, List.length_replicate] at few_digits
      exact few_digits
  · rintro ⟨short, zeros, rfl, few_digits⟩
    rw [encodeBytes, ← List.append_assoc]
    refine .intro ?_ ?_ ?_ ?_ short
    · intro b member
      rcases List.mem_append.mp member with zero | digit
      · rw [List.eq_of_mem_replicate zero]
        decide
      · exact digits_digits content.length b digit
    · rcases digits_eq_cons content.length with ⟨first, run, same, -⟩
      rw [same, List.length_append, List.length_cons]
      omega
    · rw [List.length_append, List.length_replicate]
      exact few_digits
    · rw [value_replicate_append, Decimal.value_digits]

/-! ## Values -/

section Sound

variable {depth : Nat}

theorem sound_bytes_iff {content : Bytes} :
    Sound depth (.bytes content) ↔ depth ≤ 64 ∧ content.length ≤ 2147483647 := by
  constructor
  · intro sound
    have hHere := (sound _ (Value.mem_nodes _)).1
    exact ⟨hHere.1, hHere.2 content List.mem_cons_self⟩
  · rintro ⟨shallow, short⟩
    exact sound_bytes shallow short

theorem sound_integer_iff {number : Int64} : Sound depth (.integer number) ↔ depth ≤ 64 :=
  ⟨fun sound => (sound _ (Value.mem_nodes _)).1.1, fun shallow => sound_integer shallow number⟩

theorem sound_list_iff {items : List Value} :
    Sound depth (.list items) ↔ depth ≤ 64 ∧ ∀ item ∈ items, Sound (depth + 1) item := by
  constructor
  · intro sound
    refine ⟨(sound _ (Value.mem_nodes _)).1.1, fun item member node inside => sound node ?_⟩
    rw [Value.nodes]
    exact List.mem_cons_of_mem _ (mem_nodesOfItems.mpr ⟨item, member, inside⟩)
  · rintro ⟨shallow, inside⟩
    exact sound_list shallow inside

theorem sound_dict_iff {entries : List Entry} :
    Sound depth (.dict entries) ↔ depth ≤ 64 ∧ (entries.map (·.1)).Nodup ∧
      ∀ entry ∈ entries, entry.1.length ≤ 2147483647 ∧ Sound (depth + 1) entry.2 := by
  constructor
  · intro sound
    have hHere := sound _ (Value.mem_nodes _)
    refine ⟨hHere.1.1, hHere.2, fun entry member => ⟨?_, fun node inside => sound node ?_⟩⟩
    · exact hHere.1.2 entry.1 (List.mem_map_of_mem member)
    · rw [Value.nodes]
      exact List.mem_cons_of_mem _ (mem_nodesOfEntries.mpr ⟨entry, member, inside⟩)
  · rintro ⟨shallow, distinct, inside⟩
    exact sound_dict (d := ⟨entries⟩) shallow distinct inside

end Sound

mutual

/-- A text derives a value at a depth if and only if the value may be read there and the text is a
padded form of it. -/
theorem derives_iff_padded {depth : Nat} {text : Bytes} : (value : Value) →
    (Derives depth text value ↔ Sound depth value ∧ ∃ zeros, Padded zeros text value)
  | .bytes content => by
    rw [sound_bytes_iff]
    constructor
    · intro derives
      cases derives with
      | bytes shallow string =>
        rcases byteString_iff_padded.mp string with ⟨short, zeros, padded⟩
        exact ⟨⟨shallow, short⟩, zeros, .bytes padded⟩
    · rintro ⟨⟨shallow, short⟩, zeros, padded⟩
      cases padded with
      | bytes string => exact .bytes shallow (byteString_iff_padded.mpr ⟨short, zeros, string⟩)
  | .integer number => by
    rw [sound_integer_iff]
    constructor
    · intro derives
      cases derives with
      | integer shallow numeral =>
        rw [numeral.eq_ofInt]
        exact ⟨shallow, 0, .integer number⟩
    · rintro ⟨shallow, zeros, padded⟩
      cases padded
      exact .integer shallow (numeral_ofInt number.toInt)
  | .list items => by
    rw [sound_list_iff]
    constructor
    · intro derives
      cases derives with
      | list shallow inner =>
        rcases (derivesItems_iff_padded items).mp inner with ⟨sound, zeros, padded⟩
        exact ⟨⟨shallow, sound⟩, zeros, .list padded⟩
    · rintro ⟨⟨shallow, sound⟩, zeros, padded⟩
      cases padded with
      | list inner =>
        exact .list shallow ((derivesItems_iff_padded items).mpr ⟨sound, zeros, inner⟩)
  | .dict entries => by
    rw [sound_dict_iff]
    constructor
    · intro derives
      cases derives with
      | dict shallow inner distinct =>
        rcases (derivesEntries_iff_padded entries).mp inner with ⟨sound, zeros, padded⟩
        exact ⟨⟨shallow, distinct, sound⟩, zeros, .dict padded⟩
    · rintro ⟨⟨shallow, distinct, sound⟩, zeros, padded⟩
      cases padded with
      | dict inner =>
        exact .dict shallow ((derivesEntries_iff_padded entries).mpr ⟨sound, zeros, inner⟩)
          distinct

theorem derivesItems_iff_padded {depth : Nat} {text : Bytes} : (items : List Value) →
    (DerivesItems depth text items ↔
      (∀ item ∈ items, Sound depth item) ∧ ∃ zeros, PaddedItems zeros text items)
  | [] => by
    constructor
    · intro derives
      cases derives
      exact ⟨by simp, 0, .nil⟩
    · rintro ⟨-, zeros, padded⟩
      cases padded
      exact .nil
  | item :: items => by
    rw [List.forall_mem_cons]
    constructor
    · intro derives
      cases derives with
      | cons head tail =>
        rcases (derives_iff_padded item).mp head with ⟨sound, zeros, padded⟩
        rcases (derivesItems_iff_padded items).mp tail with ⟨rest_sound, more, rest_padded⟩
        exact ⟨⟨sound, rest_sound⟩, zeros + more, .cons padded rest_padded⟩
    · rintro ⟨⟨sound, rest_sound⟩, zeros, padded⟩
      cases padded with
      | cons head tail =>
        exact .cons ((derives_iff_padded item).mpr ⟨sound, _, head⟩)
          ((derivesItems_iff_padded items).mpr ⟨rest_sound, _, tail⟩)

theorem derivesEntries_iff_padded {depth : Nat} {text : Bytes} :
    (entries : List (Bytes × Value)) →
    (DerivesEntries depth text entries ↔
      (∀ entry ∈ entries, entry.1.length ≤ 2147483647 ∧ Sound depth entry.2) ∧
        ∃ zeros, PaddedEntries zeros text entries)
  | [] => by
    constructor
    · intro derives
      cases derives
      exact ⟨by simp, 0, .nil⟩
    · rintro ⟨-, zeros, padded⟩
      cases padded
      exact .nil
  | (key, value) :: entries => by
    rw [List.forall_mem_cons]
    constructor
    · intro derives
      cases derives with
      | cons name head tail =>
        rcases byteString_iff_padded.mp name with ⟨short, few, named⟩
        rcases (derives_iff_padded value).mp head with ⟨sound, zeros, padded⟩
        rcases (derivesEntries_iff_padded entries).mp tail with ⟨rest_sound, more, rest_padded⟩
        exact ⟨⟨⟨short, sound⟩, rest_sound⟩, few + (zeros + more), .cons named padded rest_padded⟩
    · rintro ⟨⟨⟨short, sound⟩, rest_sound⟩, zeros, padded⟩
      cases padded with
      | cons name head tail =>
        exact .cons (byteString_iff_padded.mpr ⟨short, _, name⟩)
          ((derives_iff_padded value).mpr ⟨sound, _, head⟩)
          ((derivesEntries_iff_padded entries).mpr ⟨rest_sound, _, tail⟩)

end

/-! ## What is left out when a value is written again -/

/-- A text has a number of octets more than another one, and is the same if it has none more. -/
def Exceeds (zeros : Nat) (text written : Bytes) : Prop :=
  text.length = written.length + zeros ∧ (zeros = 0 → text = written)

namespace Exceeds

variable {zeros more : Nat} {text written rest rest_written : Bytes}

theorem refl (text : Bytes) : Exceeds 0 text text :=
  ⟨rfl, fun _ => rfl⟩

theorem append (first : Exceeds zeros text written) (second : Exceeds more rest rest_written) :
    Exceeds (zeros + more) (text ++ rest) (written ++ rest_written) := by
  refine ⟨?_, fun none => ?_⟩
  · rw [List.length_append, List.length_append, first.1, second.1]
    omega
  · rw [first.2 (by omega), second.2 (by omega)]

/-- The octets that enclose a list or a dictionary add nothing. -/
theorem enclose (mark : UInt8) (inner : Exceeds zeros text written) :
    Exceeds zeros (mark :: (text ++ [Mark.close])) (mark :: written ++ [Mark.close]) := by
  refine ⟨?_, fun none => ?_⟩
  · simp only [List.length_append, List.length_cons, inner.1]
    omega
  · rw [inner.2 none, List.cons_append]

theorem eq_iff (exceeds : Exceeds zeros text written) : written = text ↔ zeros = 0 := by
  constructor
  · rintro rfl
    exact Nat.left_eq_add.mp exceeds.1
  · intro none
    exact (exceeds.2 none).symm

end Exceeds

theorem PaddedBytes.exceeds {zeros : Nat} {text content : Bytes}
    (padded : PaddedBytes zeros text content) : Exceeds zeros text (encodeBytes content) := by
  rcases padded with ⟨rfl, -⟩
  refine ⟨?_, ?_⟩
  · rw [List.length_append, List.length_replicate, Nat.add_comm]
  · rintro rfl
    rfl

mutual

/-- A padded form is longer than the written form by the zeros in it. -/
theorem Padded.exceeds {zeros : Nat} {text : Bytes} : {value : Value} →
    Padded zeros text value → Exceeds zeros text value.encode
  | .bytes _, padded => by
    rw [Value.encode]
    cases padded with
    | bytes string => exact string.exceeds
  | .integer _, padded => by
    rw [Value.encode]
    cases padded
    exact .refl _
  | .list _, padded => by
    rw [Value.encode]
    cases padded with
    | list inner => exact inner.exceeds.enclose Mark.list
  | .dict _, padded => by
    rw [Value.encode]
    cases padded with
    | dict inner => exact inner.exceeds.enclose Mark.dict

theorem PaddedItems.exceeds {zeros : Nat} {text : Bytes} : {items : List Value} →
    PaddedItems zeros text items → Exceeds zeros text (Value.encodeItems items)
  | [], padded => by
    cases padded
    exact .refl _
  | _ :: _, padded => by
    rw [Value.encodeItems]
    cases padded with
    | cons head tail => exact head.exceeds.append tail.exceeds

theorem PaddedEntries.exceeds {zeros : Nat} {text : Bytes} : {entries : List (Bytes × Value)} →
    PaddedEntries zeros text entries → Exceeds zeros text (Value.encodeEntries entries)
  | [], padded => by
    cases padded
    exact .refl _
  | (_, _) :: _, padded => by
    rw [Value.encodeEntries, List.append_assoc]
    cases padded with
    | cons name head tail => exact name.exceeds.append (head.exceeds.append tail.exceeds)

end

theorem sound_zero_iff {value : Value} :
    Sound 0 value ↔ value.DistinctKeys ∧ value.WithinLimits :=
  ⟨fun sound => ⟨fun node inside => (sound node inside).2, fun node inside => (sound node inside).1⟩,
    fun both node inside => ⟨both.2 node inside, both.1 node inside⟩⟩

/-- Exactly the padded forms of a value are read as it, if it has no repeated keys and stays within
the limits.  A text that was read is longer than what is written for its value by the zeros in it,
so that writing gives the text again if and only if there are none. -/
theorem decode_eq_ok_iff_padded (data : Bytes) (value : Value) :
    decode data = .ok value ↔ (value.DistinctKeys ∧ value.WithinLimits) ∧
      ∃ zeros, Padded zeros data value ∧ data.length = value.encode.length + zeros ∧
        (value.encode = data ↔ zeros = 0) := by
  rw [decode_eq_ok_iff, derives_iff_padded, sound_zero_iff]
  refine and_congr_right fun _ => exists_congr fun zeros => ?_
  constructor
  · intro padded
    exact ⟨padded, padded.exceeds.1, padded.exceeds.eq_iff⟩
  · rintro ⟨padded, -, -⟩
    exact padded

/-- The dictionary `d01:ai1ee` is read, but `d1:ai1ee` is written for it. -/
theorem encode_ne_of_padded_key :
    let data : Bytes := [0x64, 0x30, 0x31, 0x3a, 0x61, 0x69, 0x31, 0x65, 0x65]
    let value : Value := .dict [([0x61], .integer 1)]
    decode data = .ok value ∧ value.encode = [0x64, 0x31, 0x3a, 0x61, 0x69, 0x31, 0x65, 0x65] ∧
      value.encode ≠ data := by
  intro data value
  have hOne : Decimal.digits 1 = [0x31] := digits_of_lt (by decide)
  have hKey : encodeBytes [0x61] = [0x31, 0x3a, 0x61] := by
    show Decimal.digits 1 ++ _ = _
    rw [hOne]
    rfl
  have hInteger : encodeInteger 1 = [0x69, 0x31, 0x65] := by
    show Mark.integer :: Decimal.digits 1 ++ _ = _
    rw [hOne]
    rfl
  have hWritten : value.encode = [0x64, 0x31, 0x3a, 0x61, 0x69, 0x31, 0x65, 0x65] := by
    simp only [value, Value.encode, Value.encodeEntries, hKey, hInteger]
    rfl
  refine ⟨rfl, hWritten, ?_⟩
  rw [hWritten]
  decide

end Bencode
end Kademlia
