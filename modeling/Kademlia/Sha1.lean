import Kademlia.Bytes

namespace Kademlia
namespace Sha1

/-!
The SHA-1 digest.  A message is padded to whole blocks of 64 octets, each block is spread over 80
words, and five words of state are stirred with every word.
-/

/-- The five words of state. -/
structure State where
  a : UInt32
  b : UInt32
  c : UInt32
  d : UInt32
  e : UInt32
deriving DecidableEq, Repr

/-- The state before the first block. -/
def State.start : State :=
  ⟨0x67452301, 0xefcdab89, 0x98badcfe, 0x10325476, 0xc3d2e1f0⟩

def State.add (s t : State) : State :=
  ⟨s.a + t.a, s.b + t.b, s.c + t.c, s.d + t.d, s.e + t.e⟩

def rotateLeft (w : UInt32) (n : UInt32) : UInt32 :=
  (w <<< n) ||| (w >>> (32 - n))

/-- The message followed by a single set bit, zeros up to 8 octets short of a whole block, and the
length of the message in bits. -/
def pad (message : Bytes) : Bytes :=
  let zeros := (119 - message.length % 64) % 64
  message ++ 0x80 :: List.replicate zeros 0 ++ BigEndian.encode 8 (8 * message.length)

/-- The sixteen words of a block. -/
def words (block : Bytes) : List UInt32 :=
  (Bytes.chunks 4 16 block).map fun octets => UInt32.ofNat (BigEndian.decode octets)

/-- The 80 words of a block.  Each word after the sixteenth is made of the words 3, 8, 14 and 16
places before it. -/
def schedule (block : Bytes) : Array UInt32 :=
  (List.range 64).foldl
    (fun w t =>
      let word (i : Nat) := w.getD i 0
      w.push (rotateLeft (word (t + 13) ^^^ word (t + 8) ^^^ word (t + 2) ^^^ word t) 1))
    (words block).toArray

/-- Stirs the word with number `t` into the state. -/
def round (s : State) (t : Nat) (word : UInt32) : State :=
  let (f, k) :=
    if t < 20 then ((s.b &&& s.c) ||| (~~~s.b &&& s.d), 0x5a827999)
    else if t < 40 then (s.b ^^^ s.c ^^^ s.d, 0x6ed9eba1)
    else if t < 60 then ((s.b &&& s.c) ||| (s.b &&& s.d) ||| (s.c &&& s.d), 0x8f1bbcdc)
    else (s.b ^^^ s.c ^^^ s.d, 0xca62c1d6)
  ⟨rotateLeft s.a 5 + f + s.e + k + word, s.a, rotateLeft s.b 30, s.c, s.d⟩

/-- Stirs a whole block into the state. -/
def block (s : State) (octets : Bytes) : State :=
  s.add ((schedule octets).toList.zipIdx.foldl (fun s (word, t) => round s t word) s)

/-- The twenty octets of a final state. -/
def State.toBytes (s : State) : Bytes :=
  [s.a, s.b, s.c, s.d, s.e].flatMap fun word => BigEndian.encode 4 word.toNat

/-- The digest of a message. -/
def digest (message : Bytes) : Bytes :=
  let padded := pad message
  ((Bytes.chunks 64 (padded.length / 64) padded).foldl block State.start).toBytes

@[simp]
theorem length_digest (message : Bytes) : (digest message).length = 20 := by
  simp [digest, State.toBytes]

end Sha1
end Kademlia
