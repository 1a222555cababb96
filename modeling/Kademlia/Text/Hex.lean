import Kademlia.Bytes

namespace Kademlia
namespace Hex

/-!
Octets as lowercase hexadecimal text, two digits each.
-/

/-- The character of a hexadecimal digit below sixteen. -/
def digit (n : Nat) : Char :=
  if n < 10 then Char.ofNat (0x30 + n) else Char.ofNat (0x57 + n)

/-- The two digits of an octet. -/
def octet (b : UInt8) : List Char :=
  [digit (b.toNat / 16), digit (b.toNat % 16)]

/-- The text of a string of octets, empty for the empty string. -/
def encode (bytes : Bytes) : String :=
  String.ofList (bytes.flatMap octet)

/-- The shortest lowercase hexadecimal form of a number. -/
def ofNat (n : Nat) : List Char :=
  if n < 16 then [digit n] else ofNat (n / 16) ++ [digit (n % 16)]
termination_by n

end Hex
end Kademlia
