import Kademlia.Bencode.Refusal
import Kademlia.Bencode.Writer

namespace Kademlia
namespace Bencode

/-!
Reading bencode.  A reader takes one value from the front of what is left of the input and either
leaves the rest or refuses.  `decode` wants one value that spans the whole input, `decodeDictionary`
one dictionary.
-/

/-- The number of decimal digits accepted in the length of a byte string. -/
def maxLengthDigits : Nat := 10

/-- The longest byte string accepted. -/
def maxStringLength : Nat := 0x7fffffff

/-- The deepest nesting accepted; the outermost value is at depth zero. -/
def maxDepth : Nat := 64

/-- What is left of an input, and how many octets stood before it. -/
structure Cursor where
  offset : Nat
  rest : Bytes
deriving DecidableEq, Repr

/-- The place `n` octets further on. -/
def Cursor.skip (c : Cursor) (n : Nat) : Cursor :=
  ⟨c.offset + n, c.rest.drop n⟩

/-- A reader takes something from the front of the input. -/
abbrev Reader (α : Type) := Cursor → Except DecodeError (α × Cursor)

/-- Reads the digits and the closing `e` of an integer; `start` is the place behind the `i`. -/
def readInteger : Reader Int64 := fun c =>
  let start := c.skip 1
  let negative := start.rest.head? = some Mark.minus
  let unsigned := if negative then start.skip 1 else start
  let run := unsigned.rest.takeWhile Decimal.isDigit
  let stop := unsigned.skip run.length
  match stop.rest with
  | [] => .error ⟨stop.offset, .endInInteger⟩
  | b :: _ =>
    if b ≠ Mark.close then .error ⟨stop.offset, .characterInInteger⟩
    else if run = [] then .error ⟨start.offset, .noDigits⟩
    else if run.head? = some 0x30 ∧ (1 < run.length ∨ negative) then
      .error ⟨start.offset, .leadingZero⟩
    else
      let number : Int := if negative then -(Decimal.value run : Int) else Decimal.value run
      if Int64.minValue.toInt ≤ number ∧ number ≤ Int64.maxValue.toInt then
        .ok (Int64.ofInt number, stop.skip 1)
      else .error ⟨start.offset, .integerTooLarge⟩

/-- Reads the length of a byte string, a colon and the octets themselves. -/
def readBytes : Reader Bytes := fun start =>
  let run := start.rest.takeWhile Decimal.isDigit
  let stop := start.skip run.length
  if maxLengthDigits < run.length then .error ⟨start.offset, .tooManyLengthDigits⟩
  else if run = [] then .error ⟨start.offset, .expectedLength⟩
  else
    match stop.rest with
    | [] => .error ⟨stop.offset, .endInLength⟩
    | b :: _ =>
      if b ≠ Mark.colon then .error ⟨stop.offset, .expectedColon⟩
      else if maxStringLength < Decimal.value run then .error ⟨start.offset, .stringTooLong⟩
      else
        let content := stop.skip 1
        let length := Decimal.value run
        if content.rest.length < length then .error ⟨content.offset, .truncatedString⟩
        else .ok (content.rest.take length, content.skip length)

/-- Reads items up to the closing `e`.  Every item takes at least one octet, so a number of rounds
above the length of the input is never used up. -/
def readItems (item : Reader Value) : Nat → Reader (List Value)
  | 0, c => .error ⟨c.offset, .unterminatedList⟩
  | rounds + 1, c =>
    match c.rest with
    | [] => .error ⟨c.offset, .unterminatedList⟩
    | b :: _ =>
      if b = Mark.close then .ok ([], c.skip 1)
      else do
        let (value, next) ← item c
        let (values, last) ← readItems item rounds next
        return (value :: values, last)

/-- Reads keys and values up to the closing `e`, refusing a key among those seen before.  Every
entry takes at least one octet, so a number of rounds above the length of the input is never used
up. -/
def readEntries (item : Reader Value) : Nat → List Bytes → Reader (List Entry)
  | 0, _, c => .error ⟨c.offset, .unterminatedDictionary⟩
  | rounds + 1, seen, c =>
    match c.rest with
    | [] => .error ⟨c.offset, .unterminatedDictionary⟩
    | b :: _ =>
      if b = Mark.close then .ok ([], c.skip 1)
      else if !Decimal.isDigit b then .error ⟨c.offset, .keyNotBytes⟩
      else do
        let (key, behindKey) ← readBytes c
        if key ∈ seen then throw ⟨c.offset, .duplicateKey⟩
        let (value, next) ← item behindKey
        let (entries, last) ← readEntries item rounds (key :: seen) next
        return ((key, value) :: entries, last)

/-- Reads the entries of a dictionary whose opening `d` stands in front. -/
def readDict (item : Reader Value) : Reader (List Entry) := fun c =>
  readEntries item (c.rest.length + 1) [] (c.skip 1)

/-- Reads one value that may nest through the given number of levels. -/
def readValue : Nat → Reader Value
  | 0, c => .error ⟨c.offset, .nestingTooDeep⟩
  | levels + 1, c =>
    match c.rest with
    | [] => .error ⟨c.offset, .unexpectedEnd⟩
    | b :: _ =>
      if b = Mark.integer then do
        let (number, next) ← readInteger c
        return (.integer number, next)
      else if b = Mark.list then do
        let (items, next) ← readItems (readValue levels) (c.rest.length + 1) (c.skip 1)
        return (.list items, next)
      else if b = Mark.dict then do
        let (entries, next) ← readDict (readValue levels) c
        return (.dict entries, next)
      else if Decimal.isDigit b then do
        let (content, next) ← readBytes c
        return (.bytes content, next)
      else .error ⟨c.offset, .unexpectedCharacter⟩

/-- Passes on what was read if nothing is left behind it. -/
def whole {α : Type} : α × Cursor → Except DecodeError α
  | (found, ⟨_, []⟩) => .ok found
  | (_, ⟨offset, _ :: _⟩) => .error ⟨offset, .trailingData⟩

/-- The value that spans the whole input. -/
def decode (data : Bytes) : Except DecodeError Value :=
  readValue (maxDepth + 1) ⟨0, data⟩ >>= whole

/-- The dictionary that spans the whole input.  An input that does not begin like a dictionary is
refused without being read. -/
def decodeDictionary (data : Bytes) : Except DecodeError Dictionary :=
  match data with
  | [] => .error ⟨0, .emptyInput⟩
  | b :: _ =>
    if b ≠ Mark.dict then .error ⟨0, .expectedDictionary⟩
    else do
      let entries ← readDict (readValue maxDepth) ⟨0, data⟩ >>= whole
      return ⟨entries⟩

end Bencode
end Kademlia
