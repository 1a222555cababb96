import Kademlia.Bytes

namespace Kademlia
namespace Bencode

/-!
The values that bencode can write: byte strings, 64-bit integers, lists and dictionaries.  A
dictionary keeps its entries in the order in which their keys were first inserted, because that
order is visible in the written form.
-/

/-- A bencode value.  The entries of a dictionary are listed in insertion order. -/
inductive Value where
  | bytes (content : Bytes)
  | integer (number : Int64)
  | list (items : List Value)
  | dict (entries : List (Bytes × Value))
deriving Inhabited

/-- The entry of a dictionary: a key and what is stored under it. -/
abbrev Entry := Bytes × Value

mutual

/-- Equality of values is decided by their structure. -/
def Value.decEq : (a b : Value) → Decidable (a = b)
  | .bytes a, .bytes b =>
    if same : a = b then isTrue (by rw [same]) else isFalse (by simp [same])
  | .integer a, .integer b =>
    if same : a = b then isTrue (by rw [same]) else isFalse (by simp [same])
  | .list a, .list b =>
    match Value.decEqItems a b with
    | isTrue same => isTrue (by rw [same])
    | isFalse different => isFalse (by simp [different])
  | .dict a, .dict b =>
    match Value.decEqEntries a b with
    | isTrue same => isTrue (by rw [same])
    | isFalse different => isFalse (by simp [different])
  | .bytes _, .integer _ | .bytes _, .list _ | .bytes _, .dict _
  | .integer _, .bytes _ | .integer _, .list _ | .integer _, .dict _
  | .list _, .bytes _ | .list _, .integer _ | .list _, .dict _
  | .dict _, .bytes _ | .dict _, .integer _ | .dict _, .list _ => isFalse (by simp)

/-- Equality of lists of values is decided item by item. -/
def Value.decEqItems : (a b : List Value) → Decidable (a = b)
  | [], [] => isTrue rfl
  | [], _ :: _ | _ :: _, [] => isFalse (by simp)
  | a :: as, b :: bs =>
    match Value.decEq a b, Value.decEqItems as bs with
    | isTrue head, isTrue tail => isTrue (by rw [head, tail])
    | isFalse different, _ => isFalse (by simp [different])
    | _, isFalse different => isFalse (by simp [different])

/-- Equality of lists of entries is decided entry by entry. -/
def Value.decEqEntries : (a b : List (Bytes × Value)) → Decidable (a = b)
  | [], [] => isTrue rfl
  | [], _ :: _ | _ :: _, [] => isFalse (by simp)
  | (k, a) :: as, (l, b) :: bs =>
    if keys : k = l then
      match Value.decEq a b, Value.decEqEntries as bs with
      | isTrue head, isTrue tail => isTrue (by rw [keys, head, tail])
      | isFalse different, _ => isFalse (by simp [different])
      | _, isFalse different => isFalse (by simp [different])
    else isFalse (by simp [keys])

end

instance : DecidableEq Value := Value.decEq

/-- A dictionary with byte string keys. -/
structure Dictionary where
  entries : List Entry
deriving DecidableEq, Inhabited

namespace Value

def asBytes? : Value → Option Bytes
  | bytes content => some content
  | _ => none

def asInteger? : Value → Option Int64
  | integer number => some number
  | _ => none

def asList? : Value → Option (List Value)
  | list items => some items
  | _ => none

def asDict? : Value → Option Dictionary
  | dict entries => some ⟨entries⟩
  | _ => none

/-- The byte string that holds the UTF-8 form of a text. -/
def ofString (text : String) : Value :=
  bytes (Bytes.ofString text)

end Value

namespace Dictionary

/-- A dictionary without entries. -/
def empty : Dictionary := ⟨[]⟩

def toValue (d : Dictionary) : Value :=
  .dict d.entries

def keys (d : Dictionary) : List Bytes :=
  d.entries.map (·.1)

def size (d : Dictionary) : Nat :=
  d.entries.length

def isEmpty (d : Dictionary) : Bool :=
  d.entries.isEmpty

/-- What is stored under a key, by the first entry with that key. -/
def get? (d : Dictionary) (key : Bytes) : Option Value :=
  (d.entries.find? (·.1 = key)).map (·.2)

def contains (d : Dictionary) (key : Bytes) : Bool :=
  (d.get? key).isSome

def getBytes? (d : Dictionary) (key : Bytes) : Option Bytes :=
  d.get? key >>= Value.asBytes?

def getInteger? (d : Dictionary) (key : Bytes) : Option Int64 :=
  d.get? key >>= Value.asInteger?

def getList? (d : Dictionary) (key : Bytes) : Option (List Value) :=
  d.get? key >>= Value.asList?

def getDict? (d : Dictionary) (key : Bytes) : Option Dictionary :=
  d.get? key >>= Value.asDict?

/-- Puts a value under a key.  A key that is present keeps its place. -/
def insertEntry (key : Bytes) (value : Value) : List Entry → List Entry
  | [] => [(key, value)]
  | entry :: rest =>
    if entry.1 = key then (key, value) :: rest else entry :: insertEntry key value rest

/-- Puts a value under a key.  A key that is present keeps its place. -/
def insert (d : Dictionary) (key : Bytes) (value : Value) : Dictionary :=
  ⟨insertEntry key value d.entries⟩

/-- Puts a value under a key if there is one, and changes nothing otherwise. -/
def insertOpt (d : Dictionary) (key : Bytes) (value : Option Value) : Dictionary :=
  match value with
  | some v => d.insert key v
  | none => d

/-- The dictionary that inserts the given entries one after another; those without a value are
passed over. -/
def ofEntries (entries : List (Bytes × Option Value)) : Dictionary :=
  entries.foldl (fun d (key, value) => d.insertOpt key value) empty

end Dictionary

namespace Value

/-- What is stored under a key, if the value is a dictionary. -/
def get? (v : Value) (key : Bytes) : Option Value :=
  v.asDict? >>= (·.get? key)

@[simp]
theorem asDict?_toValue (d : Dictionary) : d.toValue.asDict? = some d := rfl

end Value

end Bencode
end Kademlia
