import Kademlia.Bencode.Value
import Kademlia.Text.Quoted
import Kademlia.Text.Utf8

namespace Kademlia
namespace Bencode

/-!
Bencode values as text for people.  Byte strings that are printable ASCII are quoted and all others
shown in hexadecimal, since most of what is exchanged are raw identifiers and addresses; keys are
always shown as text.
-/

/-- A non-empty byte string of printable ASCII is quoted, any other shown in hexadecimal. -/
def bytesToText (content : Bytes) : String :=
  if !content.isEmpty && content.all (fun b => 0x20 ≤ b && b ≤ 0x7e) then
    Quoted.encode (Utf8.lossy content)
  else "0x" ++ Hex.encode content

mutual

/-- The text of a value. -/
def Value.toText : Value → String
  | .bytes content => bytesToText content
  | .integer number => toString number.toInt
  | .list items => "[" ++ ", ".intercalate (Value.itemsToText items) ++ "]"
  | .dict entries => "\x7b" ++ ", ".intercalate (Value.entriesToText entries) ++ "\x7d"

/-- The texts of the items of a list. -/
def Value.itemsToText : List Value → List String
  | [] => []
  | item :: rest => item.toText :: Value.itemsToText rest

/-- The texts of the entries of a dictionary, each a quoted key and a value. -/
def Value.entriesToText : List (Bytes × Value) → List String
  | [] => []
  | (key, value) :: rest =>
    (Quoted.encode (Utf8.lossy key) ++ ": " ++ value.toText) :: Value.entriesToText rest

end

/-- The text of a dictionary. -/
def Dictionary.toText (d : Dictionary) : String :=
  d.toValue.toText

end Bencode
end Kademlia
