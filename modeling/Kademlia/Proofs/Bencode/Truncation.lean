import Kademlia.Proofs.Bencode.Grammar

namespace Kademlia
namespace Bencode

/-!
# Texts cut short and texts that go on

A reader goes by what it has read.  When it takes something off the front of an input, it takes the
same off every longer one; and when it refuses an input, it refuses every longer one for the same
reason, unless the reason was that the input ended too early (`Extends`).  So a text that is read as
a value is refused as soon as anything follows, at its very end, and if anything is cut off its end
it is refused because it ends too early, never because it exceeds a limit (`refused_of_cut`).  Nor
does a reader look behind the end of an input, where no refusal can have its place.
-/

/-- The causes of a refusal that say that the input ended too early. -/
def Cause.isEnd : Cause → Bool
  | emptyInput | unexpectedEnd | endInInteger | endInLength | truncatedString | unterminatedList
  | unterminatedDictionary => true
  | _ => false

/-- An input that ends too early is malformed. -/
theorem Cause.refusal_of_isEnd {cause : Cause} (ended : cause.isEnd = true) :
    cause.refusal = .invalid := by
  revert ended
  cases cause <;> decide

namespace Cursor

/-- The same place in an input that goes on. -/
def extend (c : Cursor) (more : Bytes) : Cursor :=
  ⟨c.offset, c.rest ++ more⟩

/-- Where the input ends. -/
def stop (c : Cursor) : Nat :=
  c.offset + c.rest.length

/-- A place further on in the same input. -/
def Before (c next : Cursor) : Prop :=
  c.offset < next.offset ∧ next.stop = c.stop

variable {c next last : Cursor}

theorem Before.trans (first : c.Before next) (second : next.Before last) : c.Before last :=
  ⟨Nat.lt_trans first.1 second.1, second.2.trans first.2⟩

theorem Before.length_lt (before : c.Before next) : next.rest.length < c.rest.length := by
  rcases before with ⟨further, same⟩
  unfold stop at same
  omega

theorem before_skip {n : Nat} (some_skipped : 0 < n) (enough : n ≤ c.rest.length) :
    c.Before (c.skip n) := by
  refine ⟨Nat.lt_add_of_pos_right some_skipped, ?_⟩
  change c.offset + n + (c.rest.drop n).length = c.offset + c.rest.length
  rw [List.length_drop]
  omega

theorem extend_skip {n : Nat} (more : Bytes) (enough : n ≤ c.rest.length) :
    (c.extend more).skip n = (c.skip n).extend more := by
  unfold extend skip
  rw [List.drop_append_of_le_length enough]

end Cursor

/-- What a reader makes of an input, and what of one that goes on: it takes the same off both, or it
refuses both for the same reason, or it refuses the shorter one because that has ended too early. -/
inductive Extends {α : Type} (more : Bytes) (c : Cursor) :
    Except DecodeError (α × Cursor) → Except DecodeError (α × Cursor) → Prop where
  | read {found : α} {next : Cursor} (before : c.Before next) :
      Extends more c (.ok (found, next)) (.ok (found, next.extend more))
  | refused {e : DecodeError} (within : e.offset ≤ c.stop) : Extends more c (.error e) (.error e)
  | ended {e : DecodeError} {longer : Except DecodeError (α × Cursor)} (within : e.offset ≤ c.stop)
      (early : e.cause.isEnd = true) : Extends more c (.error e) longer

variable {α β : Type} {more : Bytes} {c next : Cursor}

namespace Extends

variable {r longer : Except DecodeError (α × Cursor)}

theorem of_before (extends_next : Extends more next r longer) (before : c.Before next) :
    Extends more c r longer := by
  cases extends_next with
  | read further => exact .read (before.trans further)
  | refused within => exact .refused (before.2 ▸ within)
  | ended within early => exact .ended (before.2 ▸ within) early

theorem ite {p : Prop} [Decidable p] {s s_longer : Except DecodeError (α × Cursor)}
    (yes : p → Extends more c r longer) (no : ¬ p → Extends more c s s_longer) :
    Extends more c (if p then r else s) (if p then longer else s_longer) := by
  split
  next holds => exact yes holds
  next fails => exact no fails

theorem bind {f g : α × Cursor → Except DecodeError (β × Cursor)} (first : Extends more c r longer)
    (later : ∀ found next, c.Before next →
      Extends more next (f (found, next)) (g (found, next.extend more))) :
    Extends more c (r >>= f) (longer >>= g) := by
  cases first with
  | read before => exact (later _ _ before).of_before before
  | refused within => exact .refused within
  | ended within early => exact .ended within early

theorem map {f : α → β} (first : Extends more c r longer) :
    Extends more c (do let (found, next) ← r; return (f found, next))
      (do let (found, next) ← longer; return (f found, next)) := by
  cases first with
  | read before => exact .read before
  | refused within => exact .refused within
  | ended within early => exact .ended within early

end Extends

/-! ## Integers and byte strings -/

theorem takeWhile_of_digits {run : Bytes} (digits : Digits run) :
    run.takeWhile Decimal.isDigit = run := by
  have hRun := @takeWhile_digits run [] digits nofun
  rwa [List.append_nil] at hRun

/-- An integer of which some digits may be missing, and all that comes after. -/
theorem readInteger_of_digits {offset : Nat} {mark : UInt8} {negative : Bool} {run : Bytes}
    (digits : Digits run) (plain : negative = false → run.head? ≠ some Mark.minus) :
    readInteger ⟨offset, mark :: (sign negative ++ run)⟩ =
      .error ⟨offset + 1 + (sign negative).length + run.length, .endInInteger⟩ := by
  simp only [readInteger, Cursor.skip, List.drop_succ_cons, List.drop_zero, head?_sign plain,
    skip_sign, takeWhile_of_digits digits, List.drop_length]

theorem extends_readInteger (some_left : c.rest ≠ []) :
    Extends more c (readInteger c) (readInteger (c.extend more)) := by
  rcases c with ⟨offset, _ | ⟨mark, rest⟩⟩
  · exact absurd rfl some_left
  rcases exists_sign_append rest with ⟨negative, body, rfl, plain⟩
  rcases exists_digits_append body with ⟨run, tail, rfl, digits, stops⟩
  have hStop : (⟨offset, mark :: (sign negative ++ (run ++ tail))⟩ : Cursor).stop =
      offset + 1 + (sign negative).length + run.length + tail.length := by
    simp only [Cursor.stop, List.length_cons, List.length_append]
    omega
  cases tail with
  | nil =>
    rw [List.append_nil] at plain hStop ⊢
    rw [readInteger_of_digits digits plain]
    exact .ended (Nat.le_of_eq hStop.symm) rfl
  | cons b tail =>
    have hStops : StopsDigits (b :: (tail ++ more)) := stopsDigits_cons (stops b rfl) _
    have hPlain : negative = false → (run ++ b :: (tail ++ more)).head? ≠ some Mark.minus := by
      cases run with
      | nil => exact plain
      | cons first run => exact plain
    simp only [readInteger, Cursor.skip, Cursor.extend, List.drop_succ_cons, List.drop_zero,
      List.cons_append, List.append_assoc, head?_sign plain, head?_sign hPlain, skip_sign,
      takeWhile_digits digits stops, takeWhile_digits digits hStops, List.drop_left]
    rw [List.length_cons] at hStop
    have hStart : offset + 1 ≤ (⟨offset, mark :: (sign negative ++ (run ++ b :: tail))⟩ :
        Cursor).stop := by
      rw [hStop]
      omega
    refine .ite (fun _ => .refused ?_) fun _ => .ite (fun _ => .refused hStart) fun _ =>
      .ite (fun _ => .refused hStart) fun _ => .ite (fun _ => .read ?_) fun _ => .refused hStart
    · rw [hStop]
      exact Nat.le_add_right _ _
    · rw [Cursor.Before, hStop, Cursor.stop]
      dsimp only
      omega

theorem readBytes_of_long (long : maxLengthDigits < (c.rest.takeWhile Decimal.isDigit).length) :
    readBytes c = .error ⟨c.offset, .tooManyLengthDigits⟩ :=
  if_pos long

/-- A byte string of whose length some digits may be missing. -/
theorem readBytes_of_digits {offset : Nat} {run : Bytes} (digits : Digits run) (some_left : run ≠ [])
    (few : ¬ maxLengthDigits < run.length) :
    readBytes ⟨offset, run⟩ = .error ⟨offset + run.length, .endInLength⟩ := by
  simp only [readBytes, Cursor.skip, takeWhile_of_digits digits, List.drop_length, if_neg few,
    if_neg some_left]

theorem extends_readBytes (some_left : c.rest ≠ []) :
    Extends more c (readBytes c) (readBytes (c.extend more)) := by
  rcases c with ⟨offset, input⟩
  rcases exists_digits_append input with ⟨run, tail, rfl, digits, stops⟩
  have hStart : offset ≤ (⟨offset, run ++ tail⟩ : Cursor).stop := Nat.le_add_right _ _
  have hStop : (⟨offset, run ++ tail⟩ : Cursor).stop = offset + run.length + tail.length := by
    rw [Cursor.stop, List.length_append, Nat.add_assoc]
  cases tail with
  | nil =>
    rw [List.append_nil] at some_left hStart hStop ⊢
    by_cases long : maxLengthDigits < run.length
    · have hShort : maxLengthDigits < (run.takeWhile Decimal.isDigit).length := by
        rw [takeWhile_of_digits digits]
        exact long
      -- whatever follows, the run does not get shorter
      have hLonger : maxLengthDigits < ((run ++ more).takeWhile Decimal.isDigit).length := by
        rw [List.takeWhile_append_of_pos digits, List.length_append]
        exact Nat.lt_add_right _ long
      rw [readBytes_of_long hShort, readBytes_of_long hLonger]
      exact .refused hStart
    · rw [readBytes_of_digits digits some_left long]
      exact .ended (Nat.le_of_eq hStop.symm) rfl
  | cons b tail =>
    have hStops : StopsDigits (b :: (tail ++ more)) := stopsDigits_cons (stops b rfl) _
    simp only [readBytes, Cursor.skip, Cursor.extend, List.append_assoc, List.cons_append,
      takeWhile_digits digits stops, takeWhile_digits digits hStops, List.drop_left,
      List.drop_succ_cons, List.drop_zero]
    rw [List.length_cons] at hStop
    refine .ite (fun _ => .refused hStart) fun _ => .ite (fun _ => .refused hStart) fun _ =>
      .ite (fun _ => .refused ?_) fun _ => .ite (fun _ => .refused hStart) fun _ => ?_
    · rw [hStop]
      exact Nat.le_add_right _ _
    -- what is missing of the octets may still come
    by_cases cut : tail.length < Decimal.value run
    · rw [if_pos cut]
      refine .ended ?_ rfl
      rw [hStop, Nat.add_assoc]
      exact Nat.add_le_add_left (Nat.le_add_left 1 _) _
    · have hEnough := Nat.le_of_not_lt cut
      have hLonger : ¬ (tail ++ more).length < Decimal.value run := by
        rw [List.length_append]
        omega
      rw [if_neg cut, if_neg hLonger, List.take_append_of_le_length hEnough,
        List.drop_append_of_le_length hEnough]
      refine .read ?_
      rw [Cursor.Before, hStop, Cursor.stop, List.length_drop]
      dsimp only
      omega

/-! ## Lists and dictionaries -/

section Collections

variable {item : Reader Value} (steady : ∀ c, Extends more c (item c) (item (c.extend more)))
include steady

theorem extends_readItems {rounds longer_rounds : Nat} (enough : c.rest.length < rounds)
    (longer_enough : c.rest.length + more.length < longer_rounds) :
    Extends more c (readItems item rounds c) (readItems item longer_rounds (c.extend more)) := by
  induction rounds generalizing c longer_rounds with
  | zero => omega
  | succ rounds ih =>
    cases longer_rounds with
    | zero => omega
    | succ longer_rounds =>
      rcases c with ⟨offset, _ | ⟨b, rest⟩⟩
      · exact .ended (Nat.le_refl _) rfl
      · rw [readItems, readItems]
        dsimp only [Cursor.extend, List.cons_append]
        refine .ite (fun _ => .read (Cursor.before_skip Nat.one_pos (by simp))) fun _ => ?_
        apply (steady _).bind
        intro value next before
        have hShorter := before.length_lt
        apply (ih (by omega) (by omega)).map

theorem extends_readEntries {rounds longer_rounds : Nat} {seen : List Bytes}
    (enough : c.rest.length < rounds)
    (longer_enough : c.rest.length + more.length < longer_rounds) :
    Extends more c (readEntries item rounds seen c)
      (readEntries item longer_rounds seen (c.extend more)) := by
  induction rounds generalizing c longer_rounds seen with
  | zero => omega
  | succ rounds ih =>
    cases longer_rounds with
    | zero => omega
    | succ longer_rounds =>
      rcases c with ⟨offset, _ | ⟨b, rest⟩⟩
      · exact .ended (Nat.le_refl _) rfl
      · rw [readEntries, readEntries]
        dsimp only [Cursor.extend, List.cons_append]
        refine .ite (fun _ => .read (Cursor.before_skip Nat.one_pos (by simp))) fun _ =>
          .ite (fun _ => .refused (Nat.le_add_right _ _)) fun _ => ?_
        refine (extends_readBytes (List.cons_ne_nil b rest)).bind fun key behind before => ?_
        refine .ite (fun _ => .refused ?_) fun _ => ?_
        · rw [before.2]
          exact Nat.le_add_right _ _
        · refine (steady behind).bind fun value next further => ?_
          have hShorter := (before.trans further).length_lt
          exact (ih (by omega) (by omega)).map

theorem extends_readDict (some_left : c.rest ≠ []) :
    Extends more c (readDict item c) (readDict item (c.extend more)) := by
  have hOne : 1 ≤ c.rest.length := List.length_pos_iff.mpr some_left
  have hBefore := Cursor.before_skip Nat.one_pos hOne
  have hShorter := hBefore.length_lt
  rw [readDict, readDict, Cursor.extend_skip more hOne]
  refine (extends_readEntries steady (by omega) ?_).of_before hBefore
  rw [Cursor.extend, List.length_append]
  omega

end Collections

/-! ## Values -/

theorem extends_readValue (levels : Nat) (c : Cursor) :
    Extends more c (readValue levels c) (readValue levels (c.extend more)) := by
  induction levels generalizing c with
  | zero => exact .refused (Nat.le_add_right _ _)
  | succ levels ih =>
    rcases c with ⟨offset, _ | ⟨b, rest⟩⟩
    · exact .ended (Nat.le_refl _) rfl
    have hSome : (⟨offset, b :: rest⟩ : Cursor).rest ≠ [] := List.cons_ne_nil b rest
    have hItems : Extends more ⟨offset, b :: rest⟩
        (readItems (readValue levels) ((b :: rest).length + 1) (Cursor.skip ⟨offset, b :: rest⟩ 1))
        (readItems (readValue levels) ((b :: (rest ++ more)).length + 1)
          (Cursor.skip ⟨offset, b :: (rest ++ more)⟩ 1)) := by
      have hBefore : Cursor.Before ⟨offset, b :: rest⟩ (Cursor.skip ⟨offset, b :: rest⟩ 1) :=
        Cursor.before_skip Nat.one_pos (by simp)
      refine (extends_readItems ih (Nat.lt_succ_of_lt hBefore.length_lt) ?_).of_before hBefore
      change rest.length + more.length < (rest ++ more).length + 1 + 1
      rw [List.length_append]
      omega
    rw [readValue, readValue]
    dsimp only [Cursor.extend, List.cons_append]
    exact .ite (fun _ => (extends_readInteger hSome).map) fun _ => .ite (fun _ => hItems.map)
      fun _ => .ite (fun _ => (extends_readDict ih hSome).map) fun _ =>
        .ite (fun _ => (extends_readBytes hSome).map) fun _ => .refused (Nat.le_add_right _ _)

/-! ## Whole inputs -/

/-- What was read up to the end is refused if anything follows. -/
theorem decode_append (data : Bytes) {value : Value} (accepted : decode data = .ok value)
    (some_more : more ≠ []) : decode (data ++ more) = .error ⟨data.length, .trailingData⟩ := by
  rcases read_whole_eq_ok_iff.mp accepted with ⟨offset, read⟩
  have hExtends := @extends_readValue more (maxDepth + 1) ⟨0, data⟩
  rw [read] at hExtends
  generalize hLonger : readValue (maxDepth + 1) (Cursor.extend ⟨0, data⟩ more) = longer at hExtends
  cases hExtends with
  | read before =>
    have hPlace : offset = data.length := by
      have hStop := before.2
      simpa [Cursor.stop] using hStop
    rcases List.exists_cons_of_ne_nil some_more with ⟨b, rest, rfl⟩
    rw [decode]
    change readValue (maxDepth + 1) (Cursor.extend ⟨0, data⟩ (b :: rest)) >>= whole = _
    rw [hLonger, hPlace]
    rfl

/-- Whatever is cut off the end of what was read up to the end, the input then ends too early. -/
theorem decode_front {front : Bytes} {value : Value} (accepted : decode (front ++ more) = .ok value)
    (some_more : more ≠ []) : ∃ e, decode front = .error e ∧ e.cause.isEnd = true := by
  rcases read_whole_eq_ok_iff.mp accepted with ⟨offset, read⟩
  have hExtends := @extends_readValue more (maxDepth + 1) ⟨0, front⟩
  change Extends more _ _ (readValue (maxDepth + 1) ⟨0, front ++ more⟩) at hExtends
  rw [read] at hExtends
  rw [decode]
  generalize readValue (maxDepth + 1) ⟨0, front⟩ = shorter at hExtends ⊢
  generalize hLonger : Except.ok (value, (⟨offset, []⟩ : Cursor)) = longer at hExtends
  cases hExtends with
  | read before =>
    have hRest := congrArg (·.2.rest) (Except.ok.inj hLonger)
    exact absurd (List.append_eq_nil_iff.mp hRest.symm).2 some_more
  | refused within => cases hLonger
  | @ended e _ within early => exact ⟨e, rfl, early⟩

/-- A place where an input is refused is not behind its end. -/
theorem Extends.offset_le {r longer : Except DecodeError (α × Cursor)} {e : DecodeError}
    (extends_input : Extends more c r longer) (failed : r >>= whole = .error e) :
    e.offset ≤ c.stop := by
  cases extends_input with
  | @read found next before =>
    rcases next with ⟨offset, _ | ⟨b, rest⟩⟩
    · cases failed
    · have hError : e = ⟨offset, .trailingData⟩ := (Except.error.inj failed).symm
      rw [hError, ← before.2]
      exact Nat.le_add_right _ _
  | refused within =>
    cases failed
    exact within
  | ended within early =>
    cases failed
    exact within

theorem offset_le_of_decode (data : Bytes) {e : DecodeError} (failed : decode data = .error e) :
    e.offset ≤ data.length := by
  have hOffset := (@extends_readValue [] (maxDepth + 1) ⟨0, data⟩).offset_le failed
  rwa [Cursor.stop, Nat.zero_add] at hOffset

theorem offset_le_of_decodeDictionary (data : Bytes) {e : DecodeError}
    (failed : decodeDictionary data = .error e) : e.offset ≤ data.length := by
  rcases data with _ | ⟨b, rest⟩
  · cases failed
    exact Nat.le_refl _
  rw [decodeDictionary] at failed
  split at failed
  next other =>
    cases failed
    exact Nat.zero_le _
  next opened =>
    have hExtends := @extends_readDict [] ⟨0, b :: rest⟩ (readValue maxDepth)
      (extends_readValue maxDepth) (List.cons_ne_nil b rest)
    have hFailed : readDict (readValue maxDepth) ⟨0, b :: rest⟩ >>= whole = .error e := by
      generalize readDict (readValue maxDepth) ⟨0, b :: rest⟩ >>= whole = read at failed
      cases read with
      | ok entries => cases failed
      | error other =>
        cases failed
        rfl
    have hOffset := hExtends.offset_le hFailed
    rwa [Cursor.stop, Nat.zero_add] at hOffset

/-- A text that is read as a value is the whole of one value: with anything behind it it is refused
as malformed just where the text ends, and with anything cut off its end it is malformed because it
ends too early.  And what is refused, be it as a value or as a dictionary, is refused at a place
within the input or at its end. -/
theorem refused_of_cut (data : Bytes) :
    (∀ value, decode data = .ok value →
      (∀ more, more ≠ [] →
        ∃ e, decode (data ++ more) = .error e ∧ e.refusal = .invalid ∧ e.offset = data.length) ∧
      ∀ front, front <+: data → front ≠ data →
        ∃ e, decode front = .error e ∧ e.refusal = .invalid ∧ e.cause.isEnd = true) ∧
    (∀ e, decode data = .error e → e.offset ≤ data.length) ∧
    ∀ e, decodeDictionary data = .error e → e.offset ≤ data.length := by
  refine ⟨fun value accepted => ⟨?_, ?_⟩, fun e => offset_le_of_decode data,
    fun e => offset_le_of_decodeDictionary data⟩
  · intro more some_more
    exact ⟨_, decode_append data accepted some_more, rfl, rfl⟩
  · intro front part proper
    rcases part with ⟨more, rfl⟩
    have hMore : more ≠ [] := by
      intro nothing
      rw [nothing, List.append_nil] at proper
      exact proper rfl
    rcases decode_front accepted hMore with ⟨e, refused, ended⟩
    exact ⟨e, refused, Cause.refusal_of_isEnd ended, ended⟩

/-- A dictionary that holds a list of an integer and a byte string. -/
def listed : Bytes :=
  Bytes.ofString "d1:ali-1e2:bcee"

/-- One `e` too many, and the byte string cut in two. -/
theorem refused_of_cut_listed :
    decode listed = .ok (.dict [([0x61], .list [.integer (-1), .bytes [0x62, 0x63]])]) ∧
      (∃ e, decode (listed ++ [Mark.close]) = .error e ∧ e.refusal = .invalid ∧ e.offset = 15) ∧
      ∃ e, decode (listed.take 12) = .error e ∧ e.refusal = .invalid ∧
        e.cause.isEnd = true := by
  have hRead : decode listed =
      .ok (.dict [([0x61], .list [.integer (-1), .bytes [0x62, 0x63]])]) := by
    rfl
  have hShorter : listed.take 12 ≠ listed := by
    decide
  rcases (refused_of_cut listed).1 _ hRead with ⟨longer, shorter⟩
  refine ⟨hRead, ?_, ?_⟩
  · apply longer
    exact List.cons_ne_nil _ _
  · apply shorter
    · exact List.take_prefix 12 listed
    · exact hShorter

end Bencode
end Kademlia
