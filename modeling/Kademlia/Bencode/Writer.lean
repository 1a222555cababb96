import Kademlia.Bencode.Value

namespace Kademlia
namespace Bencode

/-!
The written form of bencode values.  Integers stand between `i` and `e`, byte strings follow their
length and a colon, lists and dictionaries stand between `l` or `d` and `e`.  Entries of a
dictionary are written in insertion order.
-/

/-! The octets with a meaning of their own. -/
namespace Mark

def integer : UInt8 := 0x69
def list : UInt8 := 0x6c
def dict : UInt8 := 0x64
def close : UInt8 := 0x65
def colon : UInt8 := 0x3a
def minus : UInt8 := 0x2d

end Mark

/-- A byte string: its length, a colon, its octets. -/
def encodeBytes (content : Bytes) : Bytes :=
  Decimal.digits content.length ++ Mark.colon :: content

/-- A 64-bit integer in decimal between `i` and `e`. -/
def encodeInteger (number : Int64) : Bytes :=
  Mark.integer :: Decimal.ofInt number.toInt ++ [Mark.close]

mutual

/-- The written form of a value. -/
def Value.encode : Value → Bytes
  | .bytes content => encodeBytes content
  | .integer number => encodeInteger number
  | .list items => Mark.list :: Value.encodeItems items ++ [Mark.close]
  | .dict entries => Mark.dict :: Value.encodeEntries entries ++ [Mark.close]

/-- The written forms of values, one after another. -/
def Value.encodeItems : List Value → Bytes
  | [] => []
  | item :: rest => item.encode ++ Value.encodeItems rest

/-- The written forms of keys and values, one after another. -/
def Value.encodeEntries : List (Bytes × Value) → Bytes
  | [] => []
  | (key, value) :: rest => encodeBytes key ++ value.encode ++ Value.encodeEntries rest

end

/-- The written form of a dictionary. -/
def Dictionary.encode (d : Dictionary) : Bytes :=
  d.toValue.encode

end Bencode
end Kademlia
