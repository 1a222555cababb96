import Kademlia.Bencode.Reader

namespace Kademlia
namespace Bencode

/-!
# The grammar of bencode

The grammar says which octets are the written form of which value, without any account of how they
are read.  A value derives from a text at a depth, the outermost one at depth zero; nothing derives
below depth 64.  Numerals have no leading zeros, but lengths may, since up to ten digits of a length
are accepted whatever they are.

The reader accepts exactly what the grammar derives: `decode_eq_ok_iff_derives` says so of a whole
input, and of the dictionaries among them.  The readers of the parts are related to the grammar
first, each by the text that it takes off the front of what is left (`Reads`).  No claim is made
here about the cause of a refusal, only that everything else is refused.
-/

/-! ## Rules -/

/-- A run of decimal digits, which may be empty. -/
def Digits (run : Bytes) : Prop :=
  ∀ b ∈ run, Decimal.isDigit b = true

/-- The text of an integer: zero, or digits of which the first is not zero, behind a sign if the
integer is negative. -/
inductive Numeral : Bytes → Int → Prop where
  | zero : Numeral [0x30] 0
  | positive {first : UInt8} {run : Bytes} (digits : Digits (first :: run))
      (significant : first ≠ 0x30) : Numeral (first :: run) (Decimal.value (first :: run))
  | negative {first : UInt8} {run : Bytes} (digits : Digits (first :: run))
      (significant : first ≠ 0x30) :
      Numeral (Mark.minus :: first :: run) (-(Decimal.value (first :: run) : Int))

/-- The text of a byte string: its length in one to ten digits, a colon and the octets. -/
inductive ByteString : Bytes → Bytes → Prop where
  | intro {run content : Bytes} (digits : Digits run) (some_digit : 1 ≤ run.length)
      (few_digits : run.length ≤ 10) (length : Decimal.value run = content.length)
      (short : content.length ≤ 2147483647) : ByteString (run ++ Mark.colon :: content) content

mutual

/-- The value that a text derives at a depth. -/
inductive Derives : Nat → Bytes → Value → Prop where
  | integer {depth : Nat} {text : Bytes} {number : Int64} (shallow : depth ≤ 64)
      (numeral : Numeral text number.toInt) :
      Derives depth (Mark.integer :: (text ++ [Mark.close])) (.integer number)
  | bytes {depth : Nat} {text content : Bytes} (shallow : depth ≤ 64)
      (string : ByteString text content) : Derives depth text (.bytes content)
  | list {depth : Nat} {text : Bytes} {items : List Value} (shallow : depth ≤ 64)
      (inner : DerivesItems (depth + 1) text items) :
      Derives depth (Mark.list :: (text ++ [Mark.close])) (.list items)
  | dict {depth : Nat} {text : Bytes} {entries : List (Bytes × Value)} (shallow : depth ≤ 64)
      (inner : DerivesEntries (depth + 1) text entries)
      (distinct : (entries.map (·.1)).Nodup) :
      Derives depth (Mark.dict :: (text ++ [Mark.close])) (.dict entries)

/-- The values that a text derives one after another. -/
inductive DerivesItems : Nat → Bytes → List Value → Prop where
  | nil {depth : Nat} : DerivesItems depth [] []
  | cons {depth : Nat} {first rest : Bytes} {item : Value} {items : List Value}
      (head : Derives depth first item) (tail : DerivesItems depth rest items) :
      DerivesItems depth (first ++ rest) (item :: items)

/-- The keys and values that a text derives one after another. -/
inductive DerivesEntries : Nat → Bytes → List (Bytes × Value) → Prop where
  | nil {depth : Nat} : DerivesEntries depth [] []
  | cons {depth : Nat} {first second rest key : Bytes} {value : Value}
      {entries : List (Bytes × Value)} (name : ByteString first key)
      (head : Derives depth second value) (tail : DerivesEntries depth rest entries) :
      DerivesEntries depth (first ++ (second ++ rest)) ((key, value) :: entries)

end

/-! ## Runs of digits -/

/-- The text does not go on with a digit. -/
def StopsDigits (tail : Bytes) : Prop :=
  ∀ b, tail.head? = some b → Decimal.isDigit b = false

theorem takeWhile_digits {run tail : Bytes} (digits : Digits run) (stops : StopsDigits tail) :
    (run ++ tail).takeWhile Decimal.isDigit = run := by
  rw [List.takeWhile_append_of_pos digits]
  cases tail with
  | nil => simp
  | cons b tail => simp [stops b rfl]

theorem exists_digits_append (text : Bytes) :
    ∃ run tail, text = run ++ tail ∧ Digits run ∧ StopsDigits tail := by
  induction text with
  | nil => exact ⟨[], [], rfl, by simp [Digits], by simp [StopsDigits]⟩
  | cons b text ih =>
    by_cases digit : Decimal.isDigit b = true
    · rcases ih with ⟨run, tail, rfl, digits, stops⟩
      exact ⟨b :: run, tail, rfl, by simpa [Digits, digit] using digits, stops⟩
    · exact ⟨[], b :: text, rfl, by simp [Digits], by simpa [StopsDigits] using digit⟩

theorem stopsDigits_cons {b : UInt8} (other : Decimal.isDigit b = false) (tail : Bytes) :
    StopsDigits (b :: tail) := by
  intro c first
  rcases Option.some.inj first with rfl
  exact other

/-! ## Outcomes of a reader -/

theorem error_else_eq_ok_iff {α ε : Type} {p : Prop} [Decidable p] {e : ε} {r : Except ε α}
    {a : α} : (if p then .error e else r) = .ok a ↔ ¬ p ∧ r = .ok a := by
  split <;> simp [*]

theorem ok_else_error_eq_ok_iff {α ε : Type} {p : Prop} [Decidable p] {e : ε} {a b : α} :
    (if p then .ok a else .error e : Except ε α) = .ok b ↔ p ∧ a = b := by
  split <;> simp [*]

theorem bind_eq_ok_iff {α β ε : Type} {r : Except ε α} {f : α → Except ε β} {b : β} :
    r >>= f = .ok b ↔ ∃ a, r = .ok a ∧ f a = .ok b := by
  cases r <;> simp [bind, Except.bind]

theorem bind_return_eq_ok_iff {α β : Type} {r : Except DecodeError (α × Cursor)} {f : α → β} {b : β}
    {next : Cursor} :
    (do let (a, last) ← r; return (f a, last)) = .ok (b, next) ↔
      ∃ a, r = .ok (a, next) ∧ f a = b := by
  rw [bind_eq_ok_iff]
  constructor
  · rintro ⟨⟨a, last⟩, read, found⟩
    rcases Prod.mk.inj (Except.ok.inj found) with ⟨rfl, rfl⟩
    exact ⟨a, read, rfl⟩
  · rintro ⟨a, read, rfl⟩
    exact ⟨(a, next), read, rfl⟩

theorem throw_bind {α β ε : Type} (e : ε) (f : α → Except ε β) :
    (throw e : Except ε α) >>= f = .error e :=
  rfl

/-- A reader reads a grammar if it accepts exactly the texts of the grammar off the front of the
input, and steps over them. -/
def Reads {α : Type} (reader : Reader α) (grammar : Bytes → α → Prop) : Prop :=
  ∀ c found next, reader c = .ok (found, next) ↔
    ∃ text, grammar text found ∧ c.rest = text ++ next.rest ∧ next.offset = c.offset + text.length

/-! ## Integers -/

/-- A number fits into 64 bits if and only if it is the value of some word, and of one only. -/
theorem fits_and_ofInt_eq_iff {n : Int} {word : Int64} :
    (Int64.minValue.toInt ≤ n ∧ n ≤ Int64.maxValue.toInt) ∧ Int64.ofInt n = word ↔
      word.toInt = n := by
  constructor
  · rintro ⟨⟨low, high⟩, rfl⟩
    have above : (-9223372036854775808 : Int) ≤ n := low
    have below : n ≤ (9223372036854775807 : Int) := high
    exact Int64.toInt_ofInt_of_le (by omega) (by omega)
  · rintro rfl
    exact ⟨⟨word.minValue_le_toInt, word.toInt_le⟩, Int64.ofInt_toInt word⟩

/-- The sign in front of a number, of which only a negative one has any. -/
def sign (negative : Bool) : Bytes :=
  if negative then [Mark.minus] else []

theorem head?_sign {negative : Bool} {body : Bytes}
    (plain : negative = false → body.head? ≠ some Mark.minus) :
    ((sign negative ++ body).head? = some Mark.minus) = (negative = true) := by
  cases negative with
  | false => simpa [sign] using plain rfl
  | true => simp [sign]

theorem skip_sign (negative : Bool) (offset : Nat) (body : Bytes) :
    (if negative = true then (⟨offset + 1, (sign negative ++ body).drop 1⟩ : Cursor)
      else ⟨offset, sign negative ++ body⟩) = ⟨offset + (sign negative).length, body⟩ := by
  cases negative <;> simp [sign]

/-- What is read behind the `i`, once the sign and the run of digits are known. -/
theorem readInteger_run {offset : Nat} {mark : UInt8} {negative : Bool} {run tail : Bytes}
    {number : Int64} {next : Cursor} (digits : Digits run) (stops : StopsDigits tail)
    (plain : negative = false → (run ++ tail).head? ≠ some Mark.minus) :
    readInteger ⟨offset, mark :: (sign negative ++ (run ++ tail))⟩ = .ok (number, next) ↔
      run ≠ [] ∧ ¬ (run.head? = some 0x30 ∧ (1 < run.length ∨ negative)) ∧
        number.toInt = (if negative then -(Decimal.value run : Int) else Decimal.value run) ∧
        ∃ rest, tail = Mark.close :: rest ∧
          next = ⟨offset + 1 + (sign negative).length + run.length + 1, rest⟩ := by
  simp only [readInteger, Cursor.skip, List.drop_succ_cons, List.drop_zero, head?_sign plain,
    skip_sign, takeWhile_digits digits stops, List.drop_left]
  generalize (if negative = true then -(Decimal.value run : Int) else Decimal.value run) = value
  cases tail with
  | nil => simp
  | cons b tail =>
    simp only [error_else_eq_ok_iff, ok_else_error_eq_ok_iff, List.drop_succ_cons, List.drop_zero]
    rw [← fits_and_ofInt_eq_iff]
    constructor
    · rintro ⟨closed, some_digit, significant, fits, found⟩
      rcases Prod.mk.inj found with ⟨rfl, rfl⟩
      exact ⟨some_digit, significant, ⟨fits, rfl⟩, tail, by simpa using closed, rfl⟩
    · rintro ⟨some_digit, significant, ⟨fits, rfl⟩, rest, same, rfl⟩
      rcases List.cons.inj same with ⟨rfl, rfl⟩
      exact ⟨by simp, some_digit, significant, fits, rfl⟩

theorem exists_sign_append (text : Bytes) :
    ∃ negative body, text = sign negative ++ body ∧
      (negative = false → body.head? ≠ some Mark.minus) := by
  by_cases signed : text.head? = some Mark.minus
  · cases text with
    | nil => simp at signed
    | cons b body =>
      rcases Option.some.inj signed with rfl
      exact ⟨true, body, rfl, by simp⟩
  · exact ⟨false, text, rfl, fun _ => signed⟩

/-- A numeral is a run of digits behind a sign.  Zero stands alone and has no sign. -/
theorem numeral_iff {text : Bytes} {n : Int} :
    Numeral text n ↔ ∃ negative run, text = sign negative ++ run ∧ Digits run ∧ run ≠ [] ∧
      ¬ (run.head? = some 0x30 ∧ (1 < run.length ∨ negative)) ∧
        n = (if negative then -(Decimal.value run : Int) else Decimal.value run) := by
  constructor
  · intro numeral
    cases numeral with
    | zero => exact ⟨false, [0x30], rfl, by simp [Digits]; decide, by simp, by simp, rfl⟩
    | @positive first run digits significant =>
      exact ⟨false, first :: run, rfl, digits, by simp, by simp [significant], rfl⟩
    | @negative first run digits significant =>
      exact ⟨true, first :: run, rfl, digits, by simp, by simp [significant], rfl⟩
  · rintro ⟨negative, run, rfl, digits, some_digit, significant, rfl⟩
    rcases List.exists_cons_of_ne_nil some_digit with ⟨first, run, rfl⟩
    by_cases zero : first = 0x30
    · subst zero
      cases run with
      | nil =>
        cases negative with
        | false => exact .zero
        | true => exact absurd ⟨rfl, .inr rfl⟩ significant
      | cons b run => exact absurd ⟨rfl, .inl (by simp)⟩ significant
    · cases negative with
      | false => exact .positive digits zero
      | true => exact .negative digits zero

/-- Behind the `i`, exactly the numerals of 64-bit integers are read, with the closing `e`. -/
theorem readInteger_eq_ok_iff {offset : Nat} {mark : UInt8} {rest : Bytes} {number : Int64}
    {next : Cursor} :
    readInteger ⟨offset, mark :: rest⟩ = .ok (number, next) ↔
      ∃ text, Numeral text number.toInt ∧ rest = text ++ Mark.close :: next.rest ∧
        next.offset = offset + 1 + text.length + 1 := by
  constructor
  · intro accepted
    rcases exists_sign_append rest with ⟨negative, body, rfl, plain⟩
    rcases exists_digits_append body with ⟨run, tail, rfl, digits, stops⟩
    rcases (readInteger_run digits stops plain).mp accepted with
      ⟨some_digit, significant, value, rest, rfl, rfl⟩
    exact ⟨sign negative ++ run,
      numeral_iff.mpr ⟨negative, run, rfl, digits, some_digit, significant, value⟩,
      by simp, by simp [Nat.add_assoc]⟩
  · rintro ⟨text, numeral, rfl, stepped⟩
    rcases numeral_iff.mp numeral with ⟨negative, run, rfl, digits, some_digit, significant, value⟩
    have stops := stopsDigits_cons (b := Mark.close) (by decide) next.rest
    have plain : (run ++ Mark.close :: next.rest).head? ≠ some Mark.minus := by
      rcases List.exists_cons_of_ne_nil some_digit with ⟨first, run, rfl⟩
      intro minus
      have digit := digits first (by simp)
      rw [Option.some.inj minus] at digit
      exact absurd digit (by decide)
    rw [List.append_assoc, readInteger_run digits stops fun _ => plain]
    refine ⟨some_digit, significant, value, next.rest, rfl, ?_⟩
    rw [List.length_append, ← Nat.add_assoc] at stepped
    exact congrArg (Cursor.mk · next.rest) stepped

/-! ## Byte strings -/

theorem reads_byteString : Reads readBytes ByteString := by
  rintro ⟨offset, input⟩ content next
  constructor
  · intro accepted
    rcases exists_digits_append input with ⟨run, tail, rfl, digits, stops⟩
    simp only [readBytes, Cursor.skip, takeWhile_digits digits stops, List.drop_left,
      error_else_eq_ok_iff] at accepted
    rcases accepted with ⟨few_digits, some_digit, accepted⟩
    cases tail with
    | nil => simp at accepted
    | cons b tail =>
      simp only [error_else_eq_ok_iff, List.drop_succ_cons, List.drop_zero] at accepted
      rcases accepted with ⟨colon, short, present, found⟩
      rcases Prod.mk.inj (Except.ok.inj found) with ⟨rfl, rfl⟩
      have length : (tail.take (Decimal.value run)).length = Decimal.value run :=
        List.length_take_of_le (Nat.le_of_not_lt present)
      have same_colon : b = Mark.colon := by simpa using colon
      subst same_colon
      refine ⟨run ++ Mark.colon :: tail.take (Decimal.value run), ⟨digits, ?_, ?_, length.symm, ?_⟩,
        ?_, ?_⟩
      · exact List.length_pos_iff.mpr some_digit
      · exact Nat.le_of_not_lt few_digits
      · rw [length]
        exact Nat.le_of_not_lt short
      · simp
      · simp only [List.length_append, List.length_cons, length]
        omega
  · rintro ⟨text, ⟨digits, some_digit, few_digits, length, short⟩, whole, stepped⟩
    rename_i run
    have stops := stopsDigits_cons (b := Mark.colon) (by decide) (content ++ next.rest)
    rw [List.append_assoc, List.cons_append] at whole
    rcases whole with rfl
    simp only [readBytes, Cursor.skip, takeWhile_digits digits stops, List.drop_left,
      error_else_eq_ok_iff, List.drop_succ_cons, List.drop_zero, length]
    refine ⟨Nat.not_lt.mpr few_digits, List.length_pos_iff.mp some_digit, by simp,
      Nat.not_lt.mpr short, by simp, ?_⟩
    simp only [List.length_append, List.length_cons] at stepped
    have place : offset + run.length + 1 + content.length = next.offset := by omega
    rw [place, List.take_left]

/-! ## Lists and dictionaries -/

section Collections

variable {item : Reader Value} {depth : Nat}

theorem ByteString.exists_cons {text content : Bytes} (string : ByteString text content) :
    ∃ first rest, text = first :: rest ∧ Decimal.isDigit first = true := by
  rcases string with ⟨digits, some_digit, -, -, -⟩
  rename_i run
  rcases List.exists_cons_of_ne_nil (List.length_pos_iff.mp some_digit) with ⟨first, run, rfl⟩
  exact ⟨first, _, rfl, digits first (by simp)⟩

/-- A value cannot be taken for the end of a list, nor can it be empty. -/
theorem Derives.exists_cons {text : Bytes} {value : Value} (derives : Derives depth text value) :
    ∃ first rest, text = first :: rest ∧ first ≠ Mark.close := by
  cases derives with
  | integer => exact ⟨_, _, rfl, by decide⟩
  | list => exact ⟨_, _, rfl, by decide⟩
  | dict => exact ⟨_, _, rfl, by decide⟩
  | bytes _ string =>
    rcases string.exists_cons with ⟨first, rest, rfl, digit⟩
    refine ⟨first, rest, rfl, ?_⟩
    rintro rfl
    exact absurd digit (by decide)

/-- What was read up to the closing `e` derives. -/
theorem derivesItems_of_readItems (reads : Reads item (Derives depth)) {rounds : Nat}
    {c next : Cursor} {items : List Value} (enough : c.rest.length < rounds)
    (accepted : readItems item rounds c = .ok (items, next)) :
    ∃ text, DerivesItems depth text items ∧ c.rest = text ++ Mark.close :: next.rest ∧
      next.offset = c.offset + text.length + 1 := by
  induction rounds generalizing c items with
  | zero => omega
  | succ rounds ih =>
    rcases c with ⟨offset, input⟩
    cases input with
    | nil => simp [readItems] at accepted
    | cons b input =>
      by_cases closed : b = Mark.close
      · simp only [readItems, closed, if_true, Cursor.skip, Except.ok.injEq,
          Prod.mk.injEq] at accepted
        rcases accepted with ⟨rfl, rfl⟩
        exact ⟨[], .nil, by simp [closed], rfl⟩
      · simp only [readItems, closed, if_false, bind_eq_ok_iff] at accepted
        rcases accepted with ⟨⟨value, middle⟩, first_read, ⟨values, last⟩, rest_read, found⟩
        rcases Prod.mk.inj (Except.ok.inj found) with ⟨rfl, rfl⟩
        rcases (reads _ _ _).mp first_read with ⟨first, head, split, stepped⟩
        rcases head.exists_cons with ⟨front, text, rfl, -⟩
        have shorter : middle.rest.length < rounds := by
          have length := congrArg List.length split
          simp only [List.length_cons, List.length_append] at length enough
          omega
        rcases ih shorter rest_read with ⟨rest, tail, whole, last_stepped⟩
        refine ⟨front :: text ++ rest, .cons head tail, ?_, ?_⟩
        · rw [split, whole, List.append_assoc]
        · rw [last_stepped, stepped, List.length_append]
          omega

/-- What derives is read up to the closing `e`, with more rounds than octets. -/
theorem readItems_of_derivesItems (reads : Reads item (Derives depth)) {rounds offset : Nat}
    {text rest : Bytes} {items : List Value} (derives : DerivesItems depth text items)
    (enough : text.length < rounds) :
    readItems item rounds ⟨offset, text ++ Mark.close :: rest⟩ =
      .ok (items, ⟨offset + text.length + 1, rest⟩) := by
  induction rounds generalizing offset text items with
  | zero => omega
  | succ rounds ih =>
    cases derives with
    | nil => rfl
    | @cons _ first last value values head tail =>
      have first_read : item ⟨offset, first ++ last ++ Mark.close :: rest⟩ =
          .ok (value, ⟨offset + first.length, last ++ Mark.close :: rest⟩) :=
        (reads _ _ _).mpr ⟨first, head, List.append_assoc .., rfl⟩
      rcases head.exists_cons with ⟨front, text, rfl, open_text⟩
      simp only [List.length_append, List.length_cons] at enough
      have rest_read := @ih (offset + (front :: text).length) last values tail (by omega)
      have place : offset + (front :: text).length + last.length + 1 =
          offset + (front :: text ++ last).length + 1 := by
        rw [List.length_append, Nat.add_assoc offset]
      rw [place] at rest_read
      simp only [List.cons_append] at first_read rest_read
      simp only [List.cons_append, readItems, open_text, if_false, bind_eq_ok_iff]
      exact ⟨_, first_read, _, rest_read, rfl⟩

/-- With more rounds than octets, items are read up to the closing `e`. -/
theorem readItems_eq_ok_iff (reads : Reads item (Derives depth)) {rounds : Nat} {c next : Cursor}
    {items : List Value} (enough : c.rest.length < rounds) :
    readItems item rounds c = .ok (items, next) ↔
      ∃ text, DerivesItems depth text items ∧ c.rest = text ++ Mark.close :: next.rest ∧
        next.offset = c.offset + text.length + 1 := by
  refine ⟨derivesItems_of_readItems reads enough, ?_⟩
  rcases c with ⟨offset, input⟩
  rcases next with ⟨last, rest⟩
  dsimp only at enough ⊢
  rintro ⟨text, derives, rfl, rfl⟩
  apply readItems_of_derivesItems reads derives
  simp only [List.length_append] at enough
  omega

/-- What was read up to the closing `e` derives, and no key comes twice or was seen before. -/
theorem derivesEntries_of_readEntries (reads : Reads item (Derives depth)) {rounds : Nat}
    {seen : List Bytes} {c next : Cursor} {entries : List Entry} (enough : c.rest.length < rounds)
    (accepted : readEntries item rounds seen c = .ok (entries, next)) :
    ∃ text, DerivesEntries depth text entries ∧ (entries.map (·.1)).Nodup ∧
      (∀ key ∈ entries.map (·.1), key ∉ seen) ∧ c.rest = text ++ Mark.close :: next.rest ∧
        next.offset = c.offset + text.length + 1 := by
  induction rounds generalizing seen c entries with
  | zero => omega
  | succ rounds ih =>
    rcases c with ⟨offset, input⟩
    cases input with
    | nil => simp [readEntries] at accepted
    | cons b input =>
      by_cases closed : b = Mark.close
      · simp only [readEntries, closed, if_true, Cursor.skip, Except.ok.injEq,
          Prod.mk.injEq] at accepted
        rcases accepted with ⟨rfl, rfl⟩
        exact ⟨[], .nil, by simp, by simp, by simp [closed], rfl⟩
      · simp only [readEntries, closed, if_false, error_else_eq_ok_iff,
          bind_eq_ok_iff] at accepted
        rcases accepted with ⟨-, ⟨key, behind⟩, key_read, accepted⟩
        simp only [throw_bind, error_else_eq_ok_iff, bind_eq_ok_iff] at accepted
        rcases accepted with ⟨new, ⟨value, middle⟩, value_read, ⟨values, last⟩, rest_read, found⟩
        rcases Prod.mk.inj (Except.ok.inj found) with ⟨rfl, rfl⟩
        rcases (reads_byteString _ _ _).mp key_read with ⟨first, name, key_split, key_stepped⟩
        rcases (reads _ _ _).mp value_read with ⟨second, head, split, stepped⟩
        have shorter : middle.rest.length < rounds := by
          rcases name.exists_cons with ⟨front, text, rfl, -⟩
          have length := congrArg List.length (key_split.trans (congrArg _ split))
          simp only [List.length_cons, List.length_append] at length enough
          omega
        rcases ih shorter rest_read with ⟨rest, tail, distinct, unseen, whole, last_stepped⟩
        refine ⟨first ++ (second ++ rest), .cons name head tail, ?_, ?_, ?_, ?_⟩
        · refine List.nodup_cons.mpr ⟨fun again => ?_, distinct⟩
          exact unseen key again (by simp)
        · intro other member
          rcases List.mem_cons.mp member with rfl | member
          · exact new
          · exact fun old => unseen other member (by simp [old])
        · rw [key_split, split, whole]
          simp
        · rw [last_stepped, stepped, key_stepped]
          simp only [List.length_append]
          omega

/-- What derives is read up to the closing `e`, provided that no key comes twice or was seen
before. -/
theorem readEntries_of_derivesEntries (reads : Reads item (Derives depth)) {rounds offset : Nat}
    {seen : List Bytes} {text rest : Bytes} {entries : List Entry}
    (derives : DerivesEntries depth text entries) (distinct : (entries.map (·.1)).Nodup)
    (unseen : ∀ key ∈ entries.map (·.1), key ∉ seen) (enough : text.length < rounds) :
    readEntries item rounds seen ⟨offset, text ++ Mark.close :: rest⟩ =
      .ok (entries, ⟨offset + text.length + 1, rest⟩) := by
  induction rounds generalizing offset seen text entries with
  | zero => omega
  | succ rounds ih =>
    cases derives with
    | nil => rfl
    | @cons _ first second last key value values name head tail =>
      have key_read : readBytes ⟨offset, first ++ (second ++ last) ++ Mark.close :: rest⟩ =
          .ok (key, ⟨offset + first.length, second ++ (last ++ Mark.close :: rest)⟩) :=
        (reads_byteString _ _ _).mpr ⟨first, name, by simp, rfl⟩
      have value_read : item ⟨offset + first.length, second ++ (last ++ Mark.close :: rest)⟩ =
          .ok (value, ⟨offset + first.length + second.length, last ++ Mark.close :: rest⟩) :=
        (reads _ _ _).mpr ⟨second, head, rfl, rfl⟩
      have new : key ∉ seen := unseen key List.mem_cons_self
      simp only [List.map_cons, List.nodup_cons] at distinct
      have unseen_later : ∀ other ∈ values.map (·.1), other ∉ key :: seen := by
        intro other member old
        rcases List.mem_cons.mp old with rfl | old
        · exact distinct.1 member
        · exact unseen other (List.mem_cons_of_mem _ member) old
      rcases name.exists_cons with ⟨front, text, rfl, digit⟩
      have open_text : front ≠ Mark.close := by
        rintro rfl
        exact absurd digit (by decide)
      simp only [List.length_append, List.length_cons] at enough
      have rest_read := @ih (offset + (front :: text).length + second.length) (key :: seen) last
        values tail distinct.2 unseen_later (by omega)
      have place : offset + (front :: text).length + second.length + last.length + 1 =
          offset + (front :: text ++ (second ++ last)).length + 1 := by
        simp only [List.length_append]
        omega
      rw [place] at rest_read
      simp only [List.cons_append] at key_read rest_read
      simp only [List.cons_append, readEntries, open_text, if_false, digit, Bool.not_true,
        Bool.false_eq_true, throw_bind, error_else_eq_ok_iff, bind_eq_ok_iff]
      exact ⟨_, key_read, new, _, value_read, _, rest_read, rfl⟩

/-- With more rounds than octets, keys and values are read up to the closing `e`, provided that no
key comes twice or was seen before. -/
theorem readEntries_eq_ok_iff (reads : Reads item (Derives depth)) {rounds : Nat}
    {seen : List Bytes} {c next : Cursor} {entries : List Entry} (enough : c.rest.length < rounds) :
    readEntries item rounds seen c = .ok (entries, next) ↔
      ∃ text, DerivesEntries depth text entries ∧ (entries.map (·.1)).Nodup ∧
        (∀ key ∈ entries.map (·.1), key ∉ seen) ∧ c.rest = text ++ Mark.close :: next.rest ∧
          next.offset = c.offset + text.length + 1 := by
  refine ⟨derivesEntries_of_readEntries reads enough, ?_⟩
  rcases c with ⟨offset, input⟩
  rcases next with ⟨last, rest⟩
  dsimp only at enough ⊢
  rintro ⟨text, derives, distinct, unseen, rfl, rfl⟩
  apply readEntries_of_derivesEntries reads derives distinct unseen
  simp only [List.length_append] at enough
  omega

end Collections

/-! ## Values -/

theorem Derives.shallow {depth : Nat} {text : Bytes} {value : Value}
    (derives : Derives depth text value) : depth ≤ 64 := by
  cases derives <;> assumption

theorem readDict_eq_ok_iff {item : Reader Value} {depth offset : Nat} {mark : UInt8}
    {input : Bytes} {entries : List Entry} {next : Cursor} (reads : Reads item (Derives depth)) :
    readDict item ⟨offset, mark :: input⟩ = .ok (entries, next) ↔
      ∃ text, DerivesEntries depth text entries ∧ (entries.map (·.1)).Nodup ∧
        input = text ++ Mark.close :: next.rest ∧ next.offset = offset + 1 + text.length + 1 := by
  have enough : (Cursor.skip ⟨offset, mark :: input⟩ 1).rest.length <
      (mark :: input).length + 1 := by
    simp only [Cursor.skip, List.drop_succ_cons, List.drop_zero, List.length_cons]
    omega
  simp only [readDict, readEntries_eq_ok_iff reads enough]
  simp [Cursor.skip]

section Kinds

variable {levels offset : Nat} {rest : Bytes} {value : Value} {next : Cursor}

theorem readValue_integer_eq_ok_iff :
    readValue (levels + 1) ⟨offset, Mark.integer :: rest⟩ = .ok (value, next) ↔
      ∃ number, readInteger ⟨offset, Mark.integer :: rest⟩ = .ok (number, next) ∧
        .integer number = value :=
  bind_return_eq_ok_iff

theorem readValue_list_eq_ok_iff :
    readValue (levels + 1) ⟨offset, Mark.list :: rest⟩ = .ok (value, next) ↔
      ∃ items, readItems (readValue levels) (rest.length + 2) ⟨offset + 1, rest⟩ =
        .ok (items, next) ∧ .list items = value :=
  bind_return_eq_ok_iff

theorem readValue_dict_eq_ok_iff :
    readValue (levels + 1) ⟨offset, Mark.dict :: rest⟩ = .ok (value, next) ↔
      ∃ entries, readDict (readValue levels) ⟨offset, Mark.dict :: rest⟩ = .ok (entries, next) ∧
        .dict entries = value :=
  bind_return_eq_ok_iff

theorem readValue_of_digit {b : UInt8} (digit : Decimal.isDigit b = true) :
    readValue (levels + 1) ⟨offset, b :: rest⟩ = do
      let (content, next) ← readBytes ⟨offset, b :: rest⟩
      return (.bytes content, next) := by
  have other : ∀ mark, Decimal.isDigit mark = false → b ≠ mark := by
    rintro mark not_digit rfl
    simp [digit] at not_digit
  rw [readValue]
  simp only [other Mark.integer (by decide), other Mark.list (by decide),
    other Mark.dict (by decide), digit, if_false, if_true]

theorem readValue_digit_eq_ok_iff {b : UInt8} (digit : Decimal.isDigit b = true) :
    readValue (levels + 1) ⟨offset, b :: rest⟩ = .ok (value, next) ↔
      ∃ content, readBytes ⟨offset, b :: rest⟩ = .ok (content, next) ∧ .bytes content = value := by
  rw [readValue_of_digit digit]
  exact bind_return_eq_ok_iff

end Kinds

section Levels

variable {levels depth : Nat} (inner : Reads (readValue levels) (Derives (depth + 1)))
include inner

/-- What was read at a depth derives there, if this is so one level deeper. -/
theorem derives_of_readValue (shallow : depth ≤ 64) {c next : Cursor} {value : Value}
    (accepted : readValue (levels + 1) c = .ok (value, next)) :
    ∃ text, Derives depth text value ∧ c.rest = text ++ next.rest ∧
      next.offset = c.offset + text.length := by
  rcases c with ⟨offset, input⟩
  cases input with
  | nil => simp [readValue] at accepted
  | cons b rest =>
    by_cases integer : b = Mark.integer
    · subst integer
      rcases readValue_integer_eq_ok_iff.mp accepted with ⟨number, read, rfl⟩
      rcases readInteger_eq_ok_iff.mp read with ⟨text, numeral, rfl, stepped⟩
      refine ⟨_, .integer shallow numeral, by simp, ?_⟩
      simp only [stepped, List.length_cons, List.length_append, List.length_nil]
      omega
    by_cases list : b = Mark.list
    · subst list
      rcases readValue_list_eq_ok_iff.mp accepted with ⟨items, read, rfl⟩
      rcases (readItems_eq_ok_iff inner (by dsimp only; omega)).mp read with
        ⟨text, derives, whole, stepped⟩
      dsimp only at whole stepped
      refine ⟨_, .list shallow derives, by simp [whole], ?_⟩
      simp only [stepped, List.length_cons, List.length_append, List.length_nil]
      omega
    by_cases dict : b = Mark.dict
    · subst dict
      rcases readValue_dict_eq_ok_iff.mp accepted with ⟨entries, read, rfl⟩
      rcases (readDict_eq_ok_iff inner).mp read with ⟨text, derives, distinct, rfl, stepped⟩
      refine ⟨_, .dict shallow derives distinct, by simp, ?_⟩
      simp only [stepped, List.length_cons, List.length_append, List.length_nil]
      omega
    by_cases digit : Decimal.isDigit b = true
    · rcases (readValue_digit_eq_ok_iff digit).mp accepted with ⟨content, read, rfl⟩
      rcases (reads_byteString _ _ _).mp read with ⟨text, string, whole, stepped⟩
      exact ⟨text, .bytes shallow string, whole, stepped⟩
    · simp [readValue, integer, list, dict, digit] at accepted

/-- What derives at a depth is read there, if this is so one level deeper. -/
theorem readValue_of_derives {offset : Nat} {text rest : Bytes} {value : Value}
    (derives : Derives depth text value) :
    readValue (levels + 1) ⟨offset, text ++ rest⟩ =
      .ok (value, ⟨offset + text.length, rest⟩) := by
  cases derives with
  | integer _ numeral =>
    refine readValue_integer_eq_ok_iff.mpr
      ⟨_, readInteger_eq_ok_iff.mpr ⟨_, numeral, ?_, ?_⟩, rfl⟩
    · simp
    · simp only [List.length_cons, List.length_append, List.length_nil]
      omega
  | bytes _ string =>
    rcases string.exists_cons with ⟨b, text, rfl, digit⟩
    exact (readValue_digit_eq_ok_iff digit).mpr
      ⟨_, (reads_byteString _ _ _).mpr ⟨_, string, rfl, rfl⟩, rfl⟩
  | list _ items =>
    refine readValue_list_eq_ok_iff.mpr
      ⟨_, (readItems_eq_ok_iff inner (by simp)).mpr ⟨_, items, ?_, ?_⟩, rfl⟩
    · simp
    · simp only [List.length_cons, List.length_append, List.length_nil]
      omega
  | dict _ entries distinct =>
    refine readValue_dict_eq_ok_iff.mpr
      ⟨_, (readDict_eq_ok_iff inner).mpr ⟨_, entries, distinct, ?_, ?_⟩, rfl⟩
    · simp
    · simp only [List.length_cons, List.length_append, List.length_nil]
      omega

end Levels

/-- A reader with some levels left reads what derives at the depth that it has reached. -/
theorem reads_derives {levels depth : Nat} (reached : depth + levels = maxDepth + 1) :
    Reads (readValue levels) (Derives depth) := by
  simp only [maxDepth] at reached
  induction levels generalizing depth with
  | zero =>
    intro c value next
    constructor
    · intro accepted
      simp [readValue] at accepted
    · rintro ⟨text, derives, -, -⟩
      have shallow := derives.shallow
      omega
  | succ levels ih =>
    have inner := @ih (depth + 1) (by omega)
    rintro ⟨offset, input⟩ value ⟨last, rest⟩
    constructor
    · exact derives_of_readValue inner (by omega)
    · dsimp only
      rintro ⟨text, derives, rfl, rfl⟩
      exact readValue_of_derives inner derives

/-! ## Whole inputs -/

theorem read_whole_eq_ok_iff {α : Type} {r : Except DecodeError (α × Cursor)} {found : α} :
    r >>= whole = .ok found ↔ ∃ offset, r = .ok (found, ⟨offset, []⟩) := by
  rw [bind_eq_ok_iff]
  constructor
  · rintro ⟨⟨a, offset, rest⟩, read, spans⟩
    cases rest with
    | nil =>
      rcases Except.ok.inj spans with rfl
      exact ⟨offset, read⟩
    | cons b rest => simp [whole] at spans
  · rintro ⟨offset, read⟩
    exact ⟨_, read, rfl⟩

theorem decode_eq_ok_iff {data : Bytes} {value : Value} :
    decode data = .ok value ↔ Derives 0 data value := by
  rw [decode, read_whole_eq_ok_iff]
  constructor
  · rintro ⟨offset, read⟩
    rcases (reads_derives (Nat.zero_add _) _ _ _).mp read with ⟨text, derives, rest, -⟩
    rw [show data = text by simpa using rest]
    exact derives
  · intro derives
    exact ⟨data.length, (reads_derives (Nat.zero_add _) _ _ _).mpr
      ⟨data, derives, by simp, by simp⟩⟩

/-- What does not begin like a dictionary is none. -/
theorem Derives.starts_dict {depth : Nat} {text : Bytes} {entries : List Entry}
    (derives : Derives depth text (.dict entries)) : ∃ rest, text = Mark.dict :: rest := by
  cases derives
  exact ⟨_, rfl⟩

theorem decodeDictionary_eq_ok_iff {data : Bytes} {d : Dictionary} :
    decodeDictionary data = .ok d ↔ decode data = .ok d.toValue := by
  rcases d with ⟨entries⟩
  by_cases starts : ∃ rest, data = Mark.dict :: rest
  · rcases starts with ⟨rest, rfl⟩
    simp only [decodeDictionary, ne_eq, not_true_eq_false, if_false]
    rw [bind_eq_ok_iff, decode, read_whole_eq_ok_iff]
    constructor
    · rintro ⟨found, spans, same⟩
      rcases read_whole_eq_ok_iff.mp spans with ⟨offset, read⟩
      rcases Dictionary.mk.inj (Except.ok.inj same) with rfl
      exact ⟨offset, readValue_dict_eq_ok_iff.mpr ⟨found, read, rfl⟩⟩
    · rintro ⟨offset, read⟩
      rcases readValue_dict_eq_ok_iff.mp read with ⟨found, inner, same⟩
      rcases Value.dict.inj same with rfl
      exact ⟨found, read_whole_eq_ok_iff.mpr ⟨offset, inner⟩, rfl⟩
  · constructor
    · intro accepted
      cases data with
      | nil => simp [decodeDictionary] at accepted
      | cons b rest =>
        have other : b ≠ Mark.dict := by
          rintro rfl
          exact starts ⟨rest, rfl⟩
        simp [decodeDictionary, other] at accepted
    · intro accepted
      exact absurd (decode_eq_ok_iff.mp accepted).starts_dict starts

/-- No text of a value is the beginning of a longer one: the reader takes the shorter one off the
longer one and leaves the rest. -/
theorem Derives.prefix_free {text rest : Bytes} {value other : Value} (short : Derives 0 text value)
    (long : Derives 0 (text ++ rest) other) : rest = [] := by
  have reads := reads_derives (Nat.zero_add (maxDepth + 1))
  have hShort := (reads ⟨0, text ++ rest⟩ value ⟨0 + text.length, rest⟩).mpr
    ⟨text, short, rfl, rfl⟩
  have hLong := (reads ⟨0, text ++ rest⟩ other ⟨0 + (text ++ rest).length, []⟩).mpr
    ⟨text ++ rest, long, (List.append_nil _).symm, rfl⟩
  exact congrArg (·.2.rest) (Except.ok.inj (hShort.symm.trans hLong))

/-- A value is read from exactly the texts that it derives from, and a dictionary from exactly the
texts from which it is read as a value. -/
theorem decode_eq_ok_iff_derives (data : Bytes) :
    (∀ value, decode data = .ok value ↔ Derives 0 data value) ∧
      ∀ d, decodeDictionary data = .ok d ↔ decode data = .ok d.toValue :=
  ⟨fun _ => decode_eq_ok_iff, fun _ => decodeDictionary_eq_ok_iff⟩

end Bencode
end Kademlia
