import Kademlia.Bencode.Value

namespace Kademlia
namespace Bencode

/-!
The order of bencode values.  Byte strings come before integers, integers before lists and lists
before dictionaries.  Byte strings and lists compare item by item, a proper beginning being
smaller; dictionaries compare as their lists of keys and values.
-/

/-- Byte strings compare octet by octet. -/
def compareBytes : Bytes → Bytes → Ordering
  | [], [] => .eq
  | [], _ :: _ => .lt
  | _ :: _, [] => .gt
  | a :: as, b :: bs => (compare a b).then (compareBytes as bs)

mutual

/-- Compares two values. -/
def Value.cmp : (a b : Value) → Ordering
  | .bytes a, .bytes b => compareBytes a b
  | .bytes _, _ => .lt
  | .integer _, .bytes _ => .gt
  | .integer a, .integer b => compare a b
  | .integer _, _ => .lt
  | .list _, .bytes _ | .list _, .integer _ => .gt
  | .list a, .list b => Value.cmpItems a b
  | .list _, .dict _ => .lt
  | .dict a, .dict b => Value.cmpEntries a b
  | .dict _, _ => .gt

/-- Compares two lists of values. -/
def Value.cmpItems : (a b : List Value) → Ordering
  | [], [] => .eq
  | [], _ :: _ => .lt
  | _ :: _, [] => .gt
  | a :: as, b :: bs => (Value.cmp a b).then (Value.cmpItems as bs)

/-- Compares two lists of keys and values. -/
def Value.cmpEntries : (a b : List (Bytes × Value)) → Ordering
  | [], [] => .eq
  | [], _ :: _ => .lt
  | _ :: _, [] => .gt
  | (k, a) :: as, (l, b) :: bs =>
    (compareBytes k l).then ((Value.cmp a b).then (Value.cmpEntries as bs))

end

instance : Ord Value := ⟨Value.cmp⟩

end Bencode
end Kademlia
