import Kademlia.Proofs.Bencode.Grammar

namespace Kademlia
namespace Bencode

/-!
# Reading what was written

A written value is read back as long as it stays within the limits of the reader: no value inside
it stands deeper than 64 levels, and no byte string or key is longer than 2147483647 octets.  Beyond
these limits it is refused, and always as unsupported, since what is written is well formed.

Values are taken with the depth at which they stand (`Value.nodes`), so that one statement covers
the limits and the keys of all dictionaries.  The proofs follow the levels that the reader has left,
and carry both outcomes along (`ReadsBack`): the first part of a value that exceeds a limit decides
about the whole, because everything before it has been read.
-/

/-! ## The values inside a value -/

mutual

/-- A value at a depth, and all values inside it with their depths. -/
def Value.nodes (depth : Nat) : Value → List (Nat × Value)
  | .bytes content => [(depth, .bytes content)]
  | .integer number => [(depth, .integer number)]
  | .list items => (depth, .list items) :: Value.nodesOfItems (depth + 1) items
  | .dict entries => (depth, .dict entries) :: Value.nodesOfEntries (depth + 1) entries

/-- Values at a depth, and all values inside them. -/
def Value.nodesOfItems (depth : Nat) : List Value → List (Nat × Value)
  | [] => []
  | item :: rest => item.nodes depth ++ Value.nodesOfItems depth rest

/-- The values of entries at a depth, and all values inside them. -/
def Value.nodesOfEntries (depth : Nat) : List (Bytes × Value) → List (Nat × Value)
  | [] => []
  | (_, value) :: rest => value.nodes depth ++ Value.nodesOfEntries depth rest

end

/-- The keys of a dictionary. -/
def Value.keys : Value → List Bytes
  | .dict entries => entries.map (·.1)
  | _ => []

/-- The byte strings that a value consists of, apart from the values inside it. -/
def Value.strings : Value → List Bytes
  | .bytes content => [content]
  | value => value.keys

/-- No dictionary inside the value has a key twice. -/
def Value.DistinctKeys (value : Value) : Prop :=
  ∀ node ∈ value.nodes 0, node.2.keys.Nodup

/-- A value at a depth that the reader accepts there. -/
def WithinLimits (node : Nat × Value) : Prop :=
  node.1 ≤ 64 ∧ ∀ string ∈ node.2.strings, string.length ≤ 2147483647

/-- Every value inside the value is accepted at its depth. -/
def Value.WithinLimits (value : Value) : Prop :=
  ∀ node ∈ value.nodes 0, Bencode.WithinLimits node

/-! ## Decimal numbers -/

theorem isDigit_digit {n : Nat} (small : n < 10) : Decimal.isDigit (Decimal.digit n) = true := by
  simp only [Decimal.isDigit, Bool.and_eq_true, decide_eq_true_eq, UInt8.le_iff_toNat_le,
    Decimal.toNat_digit small]
  constructor
  · show 48 ≤ 48 + n
    omega
  · show 48 + n ≤ 57
    omega

theorem digits_of_lt {n : Nat} (small : n < 10) : Decimal.digits n = [Decimal.digit n] := by
  rw [Decimal.digits, if_pos small]

theorem digits_digits (n : Nat) : Digits (Decimal.digits n) := by
  induction n using Decimal.digits.induct with
  | case1 n small =>
    rw [digits_of_lt small]
    intro b member
    rw [List.mem_singleton.mp member]
    exact isDigit_digit small
  | case2 n large ih =>
    rw [Decimal.digits, if_neg large]
    intro b member
    rcases List.mem_append.mp member with front | last
    · exact ih b front
    · rw [List.mem_singleton.mp last]
      exact isDigit_digit (Nat.mod_lt n (by decide))

/-- Only the digits of zero begin with a zero. -/
theorem digits_eq_cons (n : Nat) :
    ∃ first run, Decimal.digits n = first :: run ∧ (first = 0x30 → n = 0) := by
  induction n using Decimal.digits.induct with
  | case1 n small =>
    refine ⟨Decimal.digit n, [], digits_of_lt small, ?_⟩
    intro zero
    have value := congrArg UInt8.toNat zero
    rw [Decimal.toNat_digit small] at value
    have : (0x30 : UInt8).toNat = 0x30 := rfl
    omega
  | case2 n large ih =>
    obtain ⟨first, run, digits, zero⟩ := ih
    refine ⟨first, run ++ [Decimal.digit (n % 10)], ?_, ?_⟩
    · rw [Decimal.digits, if_neg large, digits, List.cons_append]
    · intro first_zero
      have := zero first_zero
      omega

theorem length_digits_le_length_digits {m n : Nat} (le : m ≤ n) :
    (Decimal.digits m).length ≤ (Decimal.digits n).length := by
  induction n using Decimal.digits.induct generalizing m with
  | case1 n small =>
    rw [digits_of_lt (by omega), digits_of_lt small]
    simp
  | case2 n large ih =>
    rw [Decimal.digits.eq_def n, if_neg large]
    by_cases small : m < 10
    · rw [digits_of_lt small]
      simp
    · rw [Decimal.digits, if_neg small]
      have := @ih (m / 10) (by omega)
      simp only [List.length_append, List.length_singleton]
      omega

theorem numeral_ofInt (n : Int) : Numeral (Decimal.ofInt n) n := by
  have natural : ∀ n : Nat, n ≠ 0 → ∃ first run, Decimal.digits n = first :: run ∧
      Digits (first :: run) ∧ first ≠ 0x30 ∧ Decimal.value (first :: run) = n := by
    intro n positive
    rcases digits_eq_cons n with ⟨first, run, digits, zero⟩
    refine ⟨first, run, digits, ?_, fun same => positive (zero same), ?_⟩
    · rw [← digits]
      exact digits_digits n
    · rw [← digits]
      exact Decimal.value_digits n
  cases n with
  | ofNat n =>
    by_cases zero : n = 0
    · subst zero
      rw [Decimal.ofInt, digits_of_lt (by decide)]
      exact .zero
    · rcases natural n zero with ⟨first, run, digits, all, significant, value⟩
      have numeral := Numeral.positive all significant
      rw [value, ← digits] at numeral
      exact numeral
  | negSucc n =>
    rcases natural (n + 1) (by omega) with ⟨first, run, digits, all, significant, value⟩
    have numeral := Numeral.negative all significant
    rw [value, ← digits] at numeral
    exact numeral

/-! ## Outcomes -/

/-- What fits is read; what does not is refused as unsupported. -/
def ReadsBack {α : Type} (fits : Prop) (result : Except DecodeError α) (found : α) : Prop :=
  (fits ∧ result = .ok found) ∨ (¬ fits ∧ ∃ e, result = .error e ∧ e.refusal = .unsupported)

namespace ReadsBack

variable {α β : Type} {fits more : Prop} {result : Except DecodeError α} {found : α}

theorem ok (holds : fits) : ReadsBack fits (.ok found) found :=
  .inl ⟨holds, rfl⟩

theorem congr (same : fits ↔ more) (back : ReadsBack fits result found) :
    ReadsBack more result found := by
  rw [← propext same]
  exact back

theorem bind {f : α → Except DecodeError β} {last : β} (first : ReadsBack fits result found)
    (second : ReadsBack more (f found) last) :
    ReadsBack (fits ∧ more) (result >>= f) last := by
  rcases first with ⟨holds, rfl⟩ | ⟨exceeds, e, rfl, unsupported⟩
  · rcases second with ⟨rest_holds, rest⟩ | ⟨exceeds, rest⟩
    · exact .inl ⟨⟨holds, rest_holds⟩, rest⟩
    · exact .inr ⟨fun both => exceeds both.2, rest⟩
  · exact .inr ⟨fun both => exceeds both.1, e, rfl, unsupported⟩

end ReadsBack

/-! ## Reading the parts -/

theorem readInteger_encodeInteger (number : Int64) (offset : Nat) (rest : Bytes) :
    readInteger ⟨offset, encodeInteger number ++ rest⟩ =
      .ok (number, ⟨offset + (encodeInteger number).length, rest⟩) := by
  refine readInteger_eq_ok_iff.mpr ⟨_, numeral_ofInt number.toInt, ?_, ?_⟩
  · simp
  · simp only [encodeInteger, List.cons_append, List.length_cons, List.length_append,
      List.length_nil]
    omega

theorem encodeBytes_eq_cons (content : Bytes) :
    ∃ first rest, encodeBytes content = first :: rest ∧ Decimal.isDigit first = true := by
  rcases digits_eq_cons content.length with ⟨first, run, digits, -⟩
  refine ⟨first, run ++ Mark.colon :: content, by rw [encodeBytes, digits, List.cons_append], ?_⟩
  exact digits_digits content.length first (by simp [digits])

/-- A length below the limit has at most ten digits.  Above it, either there are more of them, or
the number itself is refused. -/
theorem readBytes_encodeBytes (content : Bytes) (offset : Nat) (rest : Bytes) :
    ReadsBack (content.length ≤ 2147483647) (readBytes ⟨offset, encodeBytes content ++ rest⟩)
      (content, ⟨offset + (encodeBytes content).length, rest⟩) := by
  have digits := digits_digits content.length
  have some_digit : Decimal.digits content.length ≠ [] := by
    rcases digits_eq_cons content.length with ⟨first, run, same, -⟩
    simp [same]
  by_cases short : content.length ≤ 2147483647
  · refine .inl ⟨short, (reads_byteString _ _ _).mpr ⟨_, ?_, rfl, rfl⟩⟩
    refine .intro digits (List.length_pos_iff.mpr some_digit) ?_ (Decimal.value_digits _) short
    have ten : (Decimal.digits 2147483647).length = 10 := by
      simp [Decimal.digits]
    exact ten ▸ length_digits_le_length_digits short
  · refine .inr ⟨short, ?_⟩
    have stops := stopsDigits_cons (b := Mark.colon) (by decide) (content ++ rest)
    have long : maxStringLength < content.length := Nat.lt_of_not_le short
    simp only [readBytes, encodeBytes, List.append_assoc, List.cons_append, Cursor.skip,
      takeWhile_digits digits stops, List.drop_left, Decimal.value_digits, some_digit, long,
      if_false, if_true, ne_eq, not_true_eq_false]
    split
    · exact ⟨_, rfl, rfl⟩
    · exact ⟨_, rfl, rfl⟩

/-! ## Reading lists and dictionaries -/

/-- A written value cannot be taken for the end of a list. -/
theorem Value.encode_eq_cons (value : Value) :
    ∃ first rest, value.encode = first :: rest ∧ first ≠ Mark.close := by
  cases value with
  | bytes content =>
    rcases encodeBytes_eq_cons content with ⟨first, rest, same, digit⟩
    refine ⟨first, rest, by rw [Value.encode, same], ?_⟩
    rintro rfl
    exact absurd digit (by decide)
  | integer number => exact ⟨_, _, by rw [Value.encode, encodeInteger]; rfl, by decide⟩
  | list items => exact ⟨_, _, by rw [Value.encode]; rfl, by decide⟩
  | dict entries => exact ⟨_, _, by rw [Value.encode]; rfl, by decide⟩

section Collections

variable {item : Reader Value} {fits : Value → Prop}

/-- The reader gives back what fits, wherever it is written. -/
def ReadsWritten (item : Reader Value) (fits : Value → Prop) (value : Value) : Prop :=
  ∀ offset rest, ReadsBack (fits value) (item ⟨offset, value.encode ++ rest⟩)
    (value, ⟨offset + value.encode.length, rest⟩)

theorem readItems_of_ne_close {first : UInt8} (goes_on : first ≠ Mark.close) (rounds offset : Nat)
    (text : Bytes) :
    readItems item (rounds + 1) ⟨offset, first :: text⟩ = do
      let (value, next) ← item ⟨offset, first :: text⟩
      let (values, last) ← readItems item rounds next
      return (value :: values, last) := by
  rw [readItems]
  exact if_neg goes_on

theorem readItems_encodeItems {items : List Value} {rounds : Nat}
    (written : ∀ value ∈ items, ReadsWritten item fits value) (enough : items.length < rounds)
    (offset : Nat) (rest : Bytes) :
    ReadsBack (∀ value ∈ items, fits value)
      (readItems item rounds ⟨offset, Value.encodeItems items ++ Mark.close :: rest⟩)
      (items, ⟨offset + (Value.encodeItems items).length + 1, rest⟩) := by
  induction items generalizing rounds offset with
  | nil =>
    cases rounds with
    | zero => simp at enough
    | succ rounds => exact .ok (by simp)
  | cons value items ih =>
    cases rounds with
    | zero => simp at enough
    | succ rounds =>
      have head := written value (by simp) offset (Value.encodeItems items ++ Mark.close :: rest)
      have tail := @ih rounds (fun other member => written other (by simp [member]))
        (by simpa using enough) (offset + value.encode.length)
      rcases value.encode_eq_cons with ⟨first, text, same, goes_on⟩
      have whole : Value.encodeItems (value :: items) ++ Mark.close :: rest =
          value.encode ++ (Value.encodeItems items ++ Mark.close :: rest) := by
        rw [Value.encodeItems, List.append_assoc]
      have place : offset + value.encode.length + (Value.encodeItems items).length + 1 =
          offset + (Value.encodeItems (value :: items)).length + 1 := by
        rw [Value.encodeItems, List.length_append]
        omega
      rw [whole, ← place, same, List.cons_append, readItems_of_ne_close goes_on, ← List.cons_append,
        ← same]
      refine ReadsBack.congr ?_ (ReadsBack.bind head (ReadsBack.bind tail (.ok trivial)))
      simp

/-- No key of a written dictionary was seen before, so that duplicates are of no concern here. -/
theorem readEntries_of_digit {first : UInt8} (digit : Decimal.isDigit first = true)
    (rounds offset : Nat) (seen : List Bytes) (text : Bytes) :
    readEntries item (rounds + 1) seen ⟨offset, first :: text⟩ = do
      let (key, behind) ← readBytes ⟨offset, first :: text⟩
      if key ∈ seen then throw ⟨offset, .duplicateKey⟩
      let (value, next) ← item behind
      let (entries, last) ← readEntries item rounds (key :: seen) next
      return ((key, value) :: entries, last) := by
  have goes_on : first ≠ Mark.close := by
    rintro rfl
    exact absurd digit (by decide)
  rw [readEntries]
  simp only [goes_on, digit, if_false, Bool.not_true, Bool.false_eq_true]

theorem readEntries_encodeEntries {entries : List Entry} {rounds : Nat} {seen : List Bytes}
    (written : ∀ entry ∈ entries, ReadsWritten item fits entry.2) (enough : entries.length < rounds)
    (distinct : (entries.map (·.1)).Nodup) (unseen : ∀ key ∈ entries.map (·.1), key ∉ seen)
    (offset : Nat) (rest : Bytes) :
    ReadsBack (∀ entry ∈ entries, entry.1.length ≤ 2147483647 ∧ fits entry.2)
      (readEntries item rounds seen ⟨offset, Value.encodeEntries entries ++ Mark.close :: rest⟩)
      (entries, ⟨offset + (Value.encodeEntries entries).length + 1, rest⟩) := by
  induction entries generalizing rounds seen offset with
  | nil =>
    cases rounds with
    | zero => simp at enough
    | succ rounds => exact .ok (by simp)
  | cons entry entries ih =>
    rcases entry with ⟨key, value⟩
    cases rounds with
    | zero => simp at enough
    | succ rounds =>
      simp only [List.map_cons, List.nodup_cons, List.forall_mem_cons] at distinct unseen written
      have name := readBytes_encodeBytes key offset
        (value.encode ++ (Value.encodeEntries entries ++ Mark.close :: rest))
      have head := written.1 (offset + (encodeBytes key).length)
        (Value.encodeEntries entries ++ Mark.close :: rest)
      have tail := @ih rounds (key :: seen) written.2 (by simpa using enough) distinct.2
        (by
          intro other member old
          rcases List.mem_cons.mp old with rfl | old
          · exact distinct.1 member
          · exact unseen.2 other member old)
        (offset + (encodeBytes key).length + value.encode.length)
      rcases encodeBytes_eq_cons key with ⟨first, text, same, digit⟩
      have whole : Value.encodeEntries ((key, value) :: entries) ++ Mark.close :: rest =
          encodeBytes key ++
            (value.encode ++ (Value.encodeEntries entries ++ Mark.close :: rest)) := by
        simp [Value.encodeEntries]
      have place : offset + (encodeBytes key).length + value.encode.length +
          (Value.encodeEntries entries).length + 1 =
            offset + (Value.encodeEntries ((key, value) :: entries)).length + 1 := by
        simp only [Value.encodeEntries, List.length_append]
        omega
      rw [whole, ← place, same, List.cons_append, readEntries_of_digit digit, ← List.cons_append,
        ← same]
      have order : (key.length ≤ 2147483647 ∧ fits value ∧
          (∀ entry ∈ entries, entry.1.length ≤ 2147483647 ∧ fits entry.2) ∧ True) ↔
            ∀ entry ∈ (key, value) :: entries, entry.1.length ≤ 2147483647 ∧ fits entry.2 := by
        simp [and_assoc]
      refine ReadsBack.congr order (ReadsBack.bind name ?_)
      simp only [unseen.1, if_false]
      exact ReadsBack.bind head (ReadsBack.bind tail (.ok trivial))

end Collections

/-! ## Reading values -/

theorem length_le_length_encodeItems (items : List Value) :
    items.length ≤ (Value.encodeItems items).length := by
  induction items with
  | nil => simp
  | cons value items ih =>
    rcases value.encode_eq_cons with ⟨first, text, same, -⟩
    simp only [Value.encodeItems, same, List.length_append, List.length_cons]
    omega

theorem length_le_length_encodeEntries (entries : List Entry) :
    entries.length ≤ (Value.encodeEntries entries).length := by
  induction entries with
  | nil => simp
  | cons entry entries ih =>
    rcases entry with ⟨key, value⟩
    rcases value.encode_eq_cons with ⟨first, text, same, -⟩
    simp only [Value.encodeEntries, same, List.length_append, List.length_cons]
    omega

theorem mem_nodesOfItems {depth : Nat} {items : List Value} {node : Nat × Value} :
    node ∈ Value.nodesOfItems depth items ↔ ∃ item ∈ items, node ∈ item.nodes depth := by
  induction items with
  | nil => simp [Value.nodesOfItems]
  | cons item items ih => simp [Value.nodesOfItems, ih]

theorem mem_nodesOfEntries {depth : Nat} {entries : List Entry} {node : Nat × Value} :
    node ∈ Value.nodesOfEntries depth entries ↔ ∃ entry ∈ entries, node ∈ entry.2.nodes depth := by
  induction entries with
  | nil => simp [Value.nodesOfEntries]
  | cons entry entries ih =>
    rcases entry with ⟨key, value⟩
    simp [Value.nodesOfEntries, ih]

theorem Value.mem_nodes (value : Value) {depth : Nat} : (depth, value) ∈ value.nodes depth := by
  cases value <;> simp [Value.nodes]

theorem withinLimits_list {depth : Nat} {items : List Value} :
    (∀ node ∈ (Value.list items).nodes depth, WithinLimits node) ↔
      depth ≤ 64 ∧ ∀ item ∈ items, ∀ node ∈ item.nodes (depth + 1), WithinLimits node := by
  simp only [Value.nodes, List.forall_mem_cons, mem_nodesOfItems]
  constructor
  · rintro ⟨top, inside⟩
    exact ⟨top.1, fun item member node within => inside node ⟨item, member, within⟩⟩
  · rintro ⟨shallow, inside⟩
    refine ⟨⟨shallow, by simp [Value.strings, Value.keys]⟩, ?_⟩
    rintro node ⟨item, member, within⟩
    exact inside item member node within

theorem withinLimits_dict {depth : Nat} {entries : List Entry} :
    (∀ node ∈ (Value.dict entries).nodes depth, WithinLimits node) ↔
      depth ≤ 64 ∧ ∀ entry ∈ entries, entry.1.length ≤ 2147483647 ∧
        ∀ node ∈ entry.2.nodes (depth + 1), WithinLimits node := by
  simp only [Value.nodes, List.forall_mem_cons, mem_nodesOfEntries]
  constructor
  · rintro ⟨⟨shallow, short⟩, inside⟩
    refine ⟨shallow, fun entry member => ⟨?_, ?_⟩⟩
    · exact short entry.1 (List.mem_map_of_mem member)
    · exact fun node within => inside node ⟨entry, member, within⟩
  · rintro ⟨shallow, inside⟩
    refine ⟨⟨shallow, ?_⟩, ?_⟩
    · intro key key_member
      rcases List.mem_map.mp key_member with ⟨entry, member, rfl⟩
      exact (inside entry member).1
    · rintro node ⟨entry, member, within⟩
      exact (inside entry member).2 node within

/-- No value inside a value at a depth exceeds the limits. -/
def FitsAt (depth : Nat) (value : Value) : Prop :=
  ∀ node ∈ value.nodes depth, WithinLimits node

section Values

variable {levels depth : Nat}

theorem readValue_encode_bytes (shallow : depth ≤ 64) (content : Bytes) :
    ReadsWritten (readValue (levels + 1)) (FitsAt depth) (.bytes content) := by
  intro offset rest
  rcases encodeBytes_eq_cons content with ⟨first, text, same, digit⟩
  rw [Value.encode, same, List.cons_append, readValue_of_digit digit, ← List.cons_append, ← same]
  refine ReadsBack.congr ?_ (ReadsBack.bind (readBytes_encodeBytes content offset rest)
    (.ok trivial))
  simp [FitsAt, Value.nodes, Bencode.WithinLimits, Value.strings, shallow]

theorem readValue_encode_integer (shallow : depth ≤ 64) (number : Int64) :
    ReadsWritten (readValue (levels + 1)) (FitsAt depth) (.integer number) := by
  intro offset rest
  have read : readValue (levels + 1) ⟨offset, encodeInteger number ++ rest⟩ =
      readInteger ⟨offset, encodeInteger number ++ rest⟩ >>= fun found =>
        .ok (.integer found.1, found.2) := rfl
  rw [Value.encode, read, readInteger_encodeInteger]
  refine ReadsBack.ok ?_
  simp [FitsAt, Value.nodes, Bencode.WithinLimits, Value.strings, Value.keys, shallow]

theorem readValue_encode_list {items : List Value} (shallow : depth ≤ 64)
    (parts : ∀ item ∈ items, ReadsWritten (readValue levels) (FitsAt (depth + 1)) item) :
    ReadsWritten (readValue (levels + 1)) (FitsAt depth) (.list items) := by
  intro offset rest
  have enough : items.length < (Value.encodeItems items ++ Mark.close :: rest).length + 2 := by
    have := length_le_length_encodeItems items
    simp only [List.length_append]
    omega
  have read : readValue (levels + 1) ⟨offset, (Value.list items).encode ++ rest⟩ = do
      let (items, next) ← readItems (readValue levels)
        ((Value.encodeItems items ++ Mark.close :: rest).length + 2)
        ⟨offset + 1, Value.encodeItems items ++ Mark.close :: rest⟩
      return (.list items, next) := by
    simp only [Value.encode, List.cons_append, List.append_assoc, List.nil_append]
    rfl
  have place : offset + 1 + (Value.encodeItems items).length + 1 =
      offset + (Value.list items).encode.length := by
    simp only [Value.encode, List.length_append, List.length_cons, List.length_nil]
    omega
  rw [read, ← place]
  refine ReadsBack.congr ?_ (ReadsBack.bind (readItems_encodeItems parts enough _ rest)
    (.ok trivial))
  refine Iff.trans ?_ withinLimits_list.symm
  rw [and_iff_left trivial]
  exact (and_iff_right shallow).symm

theorem readValue_encode_dict {entries : List Entry} (shallow : depth ≤ 64)
    (distinct : (entries.map (·.1)).Nodup)
    (parts : ∀ entry ∈ entries, ReadsWritten (readValue levels) (FitsAt (depth + 1)) entry.2) :
    ReadsWritten (readValue (levels + 1)) (FitsAt depth) (.dict entries) := by
  intro offset rest
  have enough : entries.length <
      (Value.encodeEntries entries ++ Mark.close :: rest).length + 2 := by
    have := length_le_length_encodeEntries entries
    simp only [List.length_append]
    omega
  have read : readValue (levels + 1) ⟨offset, (Value.dict entries).encode ++ rest⟩ = do
      let (entries, next) ← readEntries (readValue levels)
        ((Value.encodeEntries entries ++ Mark.close :: rest).length + 2) []
        ⟨offset + 1, Value.encodeEntries entries ++ Mark.close :: rest⟩
      return (.dict entries, next) := by
    simp only [Value.encode, List.cons_append, List.append_assoc, List.nil_append]
    rfl
  have place : offset + 1 + (Value.encodeEntries entries).length + 1 =
      offset + (Value.dict entries).encode.length := by
    simp only [Value.encode, List.length_append, List.length_cons, List.length_nil]
    omega
  rw [read, ← place]
  refine ReadsBack.congr ?_ (ReadsBack.bind (readEntries_encodeEntries parts enough distinct
    (fun _ _ => List.not_mem_nil) _ rest) (.ok trivial))
  refine Iff.trans ?_ withinLimits_dict.symm
  rw [and_iff_left trivial]
  exact (and_iff_right shallow).symm

/-- A reader with some levels left gives back what stays within the limits from the depth on that it
has reached. -/
theorem readValue_encode (reached : depth + levels = maxDepth + 1) {value : Value}
    (distinct : ∀ node ∈ value.nodes depth, node.2.keys.Nodup) :
    ReadsWritten (readValue levels) (FitsAt depth) value := by
  simp only [maxDepth] at reached
  induction levels generalizing depth value with
  | zero =>
    intro offset rest
    have deep : ¬ WithinLimits (depth, value) := by
      rintro ⟨shallow, -⟩
      dsimp only at shallow
      omega
    exact .inr ⟨fun all => deep (all _ value.mem_nodes), _, rfl, rfl⟩
  | succ levels ih =>
    have shallow : depth ≤ 64 := by omega
    have below : depth + 1 + levels = 64 + 1 := by omega
    cases value with
    | bytes content => exact readValue_encode_bytes shallow content
    | integer number => exact readValue_encode_integer shallow number
    | list items =>
      simp only [Value.nodes, List.forall_mem_cons, mem_nodesOfItems] at distinct
      refine readValue_encode_list shallow fun item member => ih below ?_
      exact fun node inside => distinct.2 node ⟨item, member, inside⟩
    | dict entries =>
      simp only [Value.nodes, List.forall_mem_cons, mem_nodesOfEntries, Value.keys] at distinct
      refine readValue_encode_dict shallow distinct.1 fun entry member => ih below ?_
      exact fun node inside => distinct.2 node ⟨entry, member, inside⟩

end Values

theorem readsBack_decode (value : Value) (distinct : value.DistinctKeys) :
    ReadsBack value.WithinLimits (decode value.encode) value := by
  have read := readValue_encode (Nat.zero_add _) distinct 0 []
  rw [List.append_nil] at read
  exact ReadsBack.congr (and_iff_left trivial) (ReadsBack.bind read (.ok trivial))

/-- A value without repeated keys is read back from its written form if and only if it stays within
the limits; otherwise the written form is refused as unsupported. -/
theorem decode_encode_eq_ok_iff (value : Value) (distinct : value.DistinctKeys) :
    (decode value.encode = .ok value ↔ value.WithinLimits) ∧
      (¬ value.WithinLimits →
        ∃ e, decode value.encode = .error e ∧ e.refusal = .unsupported) := by
  rcases readsBack_decode value distinct with ⟨within, read⟩ | ⟨exceeds, e, refused, unsupported⟩
  · exact ⟨iff_of_true read within, fun exceeds => absurd within exceeds⟩
  · refine ⟨iff_of_false ?_ exceeds, fun _ => ⟨e, refused, unsupported⟩⟩
    rw [refused]
    exact nofun

/-- A dictionary with a list inside it, and its keys out of order. -/
def nested : Value :=
  .dict [([0x7a], .integer (-17)), ([0x61], .list [.bytes [0x78], .integer 0, .dict []])]

theorem decode_encode_nested : nested.DistinctKeys ∧ decode nested.encode = .ok nested := by
  have distinct : nested.DistinctKeys := by
    unfold Value.DistinctKeys
    decide
  have within : nested.WithinLimits := by
    unfold Value.WithinLimits Bencode.WithinLimits
    decide
  exact ⟨distinct, (decode_encode_eq_ok_iff nested distinct).1.mpr within⟩

end Bencode
end Kademlia
