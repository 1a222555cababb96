import Kademlia.Bytes

namespace Kademlia
namespace Crc32c

/-!
The checksum CRC-32C (Castagnoli): the remainder of a message by a polynomial over the field of
two elements, least significant bit first, with the register inverted before and after.
-/

/-- The polynomial, without its highest term, least significant bit first. -/
def polynomial : BitVec 32 := 0x82f63b78

/-- Moves the register by one bit and takes the polynomial off if a set bit falls out. -/
def shift (register : BitVec 32) : BitVec 32 :=
  if register.getLsbD 0 then (register >>> 1) ^^^ polynomial else register >>> 1

/-- Moves the register by several bits. -/
def shifts : Nat → BitVec 32 → BitVec 32
  | 0, register => register
  | n + 1, register => shifts n (shift register)

/-- Takes one octet into the register. -/
def octet (register : BitVec 32) (b : UInt8) : BitVec 32 :=
  shifts 8 (register ^^^ b.toBitVec.setWidth 32)

/-- The checksum of a message whose beginning has the given checksum. -/
def append (checksum : BitVec 32) (message : Bytes) : BitVec 32 :=
  ~~~(message.foldl octet (~~~checksum))

/-- The checksum of a message. -/
def checksum (message : Bytes) : BitVec 32 :=
  append 0 message

/-- A checksum can be continued from any place. -/
theorem append_append (start : BitVec 32) (first second : Bytes) :
    append start (first ++ second) = append (append start first) second := by
  simp [append, List.foldl_append]

end Crc32c
end Kademlia
