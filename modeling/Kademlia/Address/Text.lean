import Kademlia.Address

namespace Kademlia
namespace Address

/-!
Destinations in their usual written form, `1.2.3.4:5`, `[1:2::3]:4` or, with a link, `[1:2::3%6]:4`.
Each reader takes something from the front of a text and leaves the rest, or does not apply.
-/

/-- Takes something from the front of a text. -/
abbrev TextReader (α : Type) := List Char → Option (α × List Char)

/-- The value of a digit in a base up to sixteen. -/
def digitValue? (base : Nat) (c : Char) : Option Nat :=
  let value? :=
    if '0' ≤ c ∧ c ≤ '9' then some (c.toNat - 0x30)
    else if 'a' ≤ c ∧ c ≤ 'f' then some (c.toNat - 0x57)
    else if 'A' ≤ c ∧ c ≤ 'F' then some (c.toNat - 0x37)
    else none
  value?.filter (· < base)

/-- Takes one given character. -/
def readChar (c : Char) : TextReader Unit
  | d :: rest => if d = c then some ((), rest) else none
  | [] => none

/-- Takes a number below a limit, written with at most so many digits.  Where leading zeros are not
allowed, zero is a single digit. -/
def readNumber (base limit maxDigits : Nat) (leadingZeros : Bool) : TextReader Nat := fun text =>
  let run := text.takeWhile fun c => (digitValue? base c).isSome
  let value := run.foldl (fun n c => n * base + (digitValue? base c).getD 0) 0
  if run.isEmpty ∨ maxDigits < run.length ∨ limit ≤ value then none
  else if !leadingZeros ∧ run.head? = some '0' ∧ 1 < run.length then none
  else some (value, text.drop run.length)

/-- Takes the four numbers of an address of the first family. -/
def readIpv4 : TextReader (BitVec 32) := fun text => do
  let (a, text) ← readNumber 10 256 3 false text
  let (_, text) ← readChar '.' text
  let (b, text) ← readNumber 10 256 3 false text
  let (_, text) ← readChar '.' text
  let (c, text) ← readNumber 10 256 3 false text
  let (_, text) ← readChar '.' text
  let (d, text) ← readNumber 10 256 3 false text
  return (BitVec.ofNat 32 (((a * 256 + b) * 256 + c) * 256 + d), text)

/-- Takes as many groups of sixteen bits as there are, up to a limit, separated by colons.  The last
two may be written like an address of the first family, which ends the groups; the answer tells
whether they are. -/
def readGroups (first : Bool) : Nat → List Char → List Nat × Bool × List Char
  | 0, text => ([], false, text)
  | room + 1, text =>
    let behindColon := if first then some text else (readChar ':' text).map (·.2)
    match behindColon with
    | none => ([], false, text)
    | some inner =>
      match if 0 < room then readIpv4 inner else none with
      | some (word, rest) => ([word.toNat / UInt16.size, word.toNat % UInt16.size], true, rest)
      | none =>
        match readNumber 16 UInt16.size 4 true inner with
        | none => ([], false, text)
        | some (group, rest) =>
          let (groups, embedded, last) := readGroups false room rest
          (group :: groups, embedded, last)

/-- The number that eight groups of sixteen bits denote. -/
def ofGroups (groups : List Nat) : BitVec 128 :=
  BitVec.ofNat 128 (groups.foldl (fun n group => n * UInt16.size + group) 0)

/-- Takes an address of the second family: eight groups, or fewer around a double colon that stands
for at least one group of zeros. -/
def readIpv6 : TextReader (BitVec 128) := fun text =>
  let (head, embedded, rest) := readGroups true 8 text
  if head.length = 8 then some (ofGroups head, rest)
  else if embedded then none
  else do
    let (_, rest) ← readChar ':' rest
    let (_, rest) ← readChar ':' rest
    let (tail, _, rest) := readGroups true (7 - head.length) rest
    return (ofGroups (head ++ List.replicate (8 - head.length - tail.length) 0 ++ tail), rest)

/-- Takes the number of a link behind a percent sign, or nothing if there is none. -/
def readLink (text : List Char) : UInt32 × List Char :=
  match (readChar '%' text).bind fun (_, rest) =>
    readNumber 10 UInt32.size rest.length true rest with
  | some (link, rest) => (UInt32.ofNat link, rest)
  | none => (0, text)

/-- Takes a host of either family, and a link; a host of the second family stands in brackets, with
its link. -/
def readHost : TextReader (Ip × UInt32) := fun text =>
  match readIpv4 text with
  | some (word, rest) => some ((.v4 word, 0), rest)
  | none => do
    let (_, rest) ← readChar '[' text
    let (word, rest) ← readIpv6 rest
    let (link, rest) := readLink rest
    let (_, rest) ← readChar ']' rest
    return ((.v6 word, link), rest)

end Address

/-- The destination that a text denotes. -/
def Destination.ofText? (text : String) : Option Destination := do
  let ((ip, link), rest) ← Address.readHost text.toList
  let (_, rest) ← Address.readChar ':' rest
  let (port, rest) ← Address.readNumber 10 UInt16.size rest.length true rest
  if rest.isEmpty then return ⟨⟨ip, UInt16.ofNat port⟩, link⟩ else none

end Kademlia
