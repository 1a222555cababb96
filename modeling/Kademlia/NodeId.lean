import Kademlia.Sha1
import Kademlia.Text.Hex

namespace Kademlia

/-!
Identifiers of 160 bits.  Nodes and the keys under which peers are stored share one space, and the
distance of two identifiers is their exclusive or, read as a number: the longer the common
beginning of two identifiers, the closer they are.
-/

/-- An identifier of a node or of a key.  Bit 0 is the most significant one. -/
structure NodeId where
  word : BitVec 160
deriving DecidableEq, Repr

/-- The key under which the peers of one interest are stored. -/
abbrev InfoHash := NodeId

namespace NodeId

/-- The number of octets of an identifier. -/
def width : Nat := 20

/-- The identifier all of whose bits are clear. -/
def zero : NodeId := ⟨0⟩

instance : Inhabited NodeId := ⟨zero⟩

/-- The twenty octets of an identifier. -/
def toBytes (id : NodeId) : Bytes :=
  BigEndian.encode width id.word.toNat

/-- The identifier with the given octets, of which there must be twenty. -/
def ofBytes? (bytes : Bytes) : Option NodeId :=
  if bytes.length = width then some ⟨BitVec.ofNat 160 (BigEndian.decode bytes)⟩ else none

/-- What is said of octets that are too few or too many for an identifier. -/
def lengthMessage : String := "invalid id length"

/-- The SHA-1 digest of a string of octets. -/
def sha1 (message : Bytes) : NodeId :=
  ⟨BitVec.ofNat 160 (BigEndian.decode (Sha1.digest message))⟩

/-- The key that scopes the peers of one network: all who share the name meet under it. -/
def ofNetworkKey (name : String) : InfoHash :=
  sha1 (Bytes.ofString name)

/-- The forty hexadecimal digits of an identifier. -/
def toHex (id : NodeId) : String :=
  Hex.encode id.toBytes

instance : ToString NodeId := ⟨toHex⟩

/-- Identifiers compare as numbers. -/
instance : Ord NodeId := ⟨fun a b => compare a.word.toNat b.word.toNat⟩

/-- The exclusive or of two identifiers. -/
def distance (a b : NodeId) : NodeId :=
  ⟨a.word ^^^ b.word⟩

/-- Which of `a` and `b` is closer to `target`; equally close ones compare as numbers. -/
def cmpDistance (target a b : NodeId) : Ordering :=
  (compare (target.distance a) (target.distance b)).then (compare a b)

/-- The identifier with one bit turned over. -/
def flipBit (id : NodeId) (index : Fin 160) : NodeId :=
  ⟨id.word ^^^ BitVec.twoPow 160 (159 - index)⟩

/-- How many bits are clear before the first set one. -/
def leadingZeros (id : NodeId) : Nat :=
  if id.word = 0 then 160 else 159 - id.word.toNat.log2

/-- How many bits two identifiers have in common before the first in which they differ. -/
def commonBits (a b : NodeId) : Nat :=
  (a.distance b).leadingZeros

@[simp]
theorem length_toBytes (id : NodeId) : id.toBytes.length = 20 := by
  simp [toBytes, width]

/-- The octets of an identifier give it back. -/
@[simp]
theorem ofBytes?_toBytes (id : NodeId) : ofBytes? id.toBytes = some id := by
  have bound : id.word.toNat < BigEndian.capacity 20 := id.word.isLt
  have word : BitVec.ofNat 160 (BigEndian.decode id.toBytes) = id.word := by
    rw [toBytes, width, BigEndian.decode_encode, Nat.mod_eq_of_lt bound]
    simp
  rw [ofBytes?, if_pos (show id.toBytes.length = width from length_toBytes id), word]

/-- Twenty octets are the octets of the identifier that they give. -/
theorem toBytes_of_ofBytes? {bytes : Bytes} {id : NodeId} (accepted : ofBytes? bytes = some id) :
    id.toBytes = bytes := by
  unfold ofBytes? at accepted
  split at accepted
  next twenty =>
    have bound := BigEndian.decode_lt bytes
    rw [twenty, width] at bound
    obtain rfl := Option.some.inj accepted
    have number : (BitVec.ofNat 160 (BigEndian.decode bytes)).toNat = BigEndian.decode bytes :=
      (BitVec.toNat_ofNat _ _).trans (Nat.mod_eq_of_lt bound)
    rw [toBytes, number, ← twenty, BigEndian.encode_decode]
  next => simp at accepted

end NodeId
end Kademlia
