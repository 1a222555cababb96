import Kademlia.Text.Hex
import Kademlia.Text.Printable

namespace Kademlia
namespace Quoted

/-!
Text between double quotes.  Quotes and backslashes are escaped, as are the characters that would
not be seen; the latter by a letter where one is customary and by their number otherwise.
-/

/-- How one character is written between the quotes. -/
def escape (c : Char) : List Char :=
  match c.toNat with
  | 0x00 => ['\\', '0']
  | 0x09 => ['\\', 't']
  | 0x0a => ['\\', 'n']
  | 0x0d => ['\\', 'r']
  | 0x22 => ['\\', '"']
  | 0x5c => ['\\', '\\']
  | n =>
    if isPrintable c then [c]
    else ['\\', 'u', '\x7b'] ++ Hex.ofNat n ++ ['\x7d']

/-- A text between quotes. -/
def encode (text : String) : String :=
  String.ofList ('"' :: text.toList.flatMap escape ++ ['"'])

end Quoted
end Kademlia
