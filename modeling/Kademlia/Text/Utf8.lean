import Kademlia.Bytes

namespace Kademlia
namespace Utf8

/-!
Octets read as UTF-8 text without ever failing.  Well-formed sequences give their characters;
every longest ill-formed start of a sequence gives one replacement character U+FFFD, as the
Unicode standard recommends.  `lossy_ofString` says that the UTF-8 form of a text is read back
unchanged.
-/

/-- U+FFFD, which stands for octets that are no text. -/
def replacement : Char := Char.ofNat 0xFFFD

/-- Whether an octet lies between two bounds, both included. -/
def between (lo hi b : UInt8) : Bool :=
  lo ≤ b && b ≤ hi

/-- Whether an octet can be the second of a sequence that `lead` opens.  The narrower ranges leave
out overlong forms, surrogates and numbers above U+10FFFF. -/
def continues (lead second : UInt8) : Bool :=
  if lead = 0xE0 then between 0xA0 0xBF second
  else if lead = 0xED then between 0x80 0x9F second
  else if lead = 0xF0 then between 0x90 0xBF second
  else if lead = 0xF4 then between 0x80 0x8F second
  else between 0x80 0xBF second

/-- How many octets the longest ill-formed start of a sequence takes after its first octet, given
that no well-formed sequence begins here. -/
def illFormedTail (lead : UInt8) : Bytes → Nat
  | second :: third :: _ =>
    if between 0xE0 0xEF lead then
      if continues lead second then 1 else 0
    else if between 0xF0 0xF4 lead then
      if continues lead second then if between 0x80 0xBF third then 2 else 1 else 0
    else 0
  | [second] => if between 0xE0 0xF4 lead && continues lead second then 1 else 0
  | [] => 0

/-- The character that a well-formed sequence at the start of the octets stands for. -/
def first? (bytes : Bytes) : Option Char :=
  (bytes.take 4).toByteArray.utf8DecodeChar? 0

/-- The characters of a string of octets, with replacements for what is ill-formed. -/
def lossyChars : Bytes → List Char
  | [] => []
  | b :: rest =>
    match first? (b :: rest) with
    | some c => c :: lossyChars (rest.drop (c.utf8Size - 1))
    | none => replacement :: lossyChars (rest.drop (illFormedTail b rest))
termination_by bytes => bytes.length
decreasing_by all_goals simp only [List.length_drop, List.length_cons]; omega

/-- The text of a string of octets, with replacements for what is ill-formed. -/
def lossy (bytes : Bytes) : String :=
  String.ofList (lossyChars bytes)

/-- The form of a character is recognised whatever follows it. -/
theorem first?_encode_append (c : Char) (rest : Bytes) :
    first? (String.utf8EncodeChar c ++ rest) = some c := by
  have short : (String.utf8EncodeChar c).length ≤ 4 := by
    rw [String.length_utf8EncodeChar]; exact c.utf8Size_le_four
  rw [first?, List.take_append, List.take_of_length_le short, List.toByteArray_append]
  exact ByteArray.utf8DecodeChar?_utf8EncodeChar_append

theorem lossyChars_encode_append (c : Char) (rest : Bytes) :
    lossyChars (String.utf8EncodeChar c ++ rest) = c :: lossyChars rest := by
  have recognised := first?_encode_append c rest
  have size : (String.utf8EncodeChar c).length = c.utf8Size := String.length_utf8EncodeChar c
  cases form : String.utf8EncodeChar c with
  | nil => rw [form] at size; have := c.utf8Size_pos; simp at size; omega
  | cons b tail =>
    rw [form] at recognised size
    simp only [List.cons_append] at recognised ⊢
    rw [lossyChars, recognised]
    simp only [List.length_cons] at size
    have behind : c.utf8Size - 1 = tail.length := by omega
    simp only [behind, List.drop_left]

/-- The UTF-8 form of a text is read back unchanged. -/
@[simp]
theorem lossy_ofString (text : String) : lossy (Bytes.ofString text) = text := by
  have general : ∀ cs : List Char, lossyChars (cs.flatMap String.utf8EncodeChar) = cs := by
    intro cs
    induction cs with
    | nil => simp [lossyChars]
    | cons c cs ih => rw [List.flatMap_cons, lossyChars_encode_append, ih]
  rw [lossy, Bytes.ofString, general, String.ofList_toList]

end Utf8
end Kademlia
