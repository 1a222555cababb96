namespace Kademlia
namespace Bencode

/-!
Why an input is refused as bencode.  A refusal names the place and the cause; it is `invalid` where
the input is not well formed and `unsupported` where it exceeds a limit of the reader.
-/

/-- Whether an input is malformed or merely beyond the limits. -/
inductive Refusal where
  | invalid
  | unsupported
deriving DecidableEq, Repr

/-- Why an input is refused. -/
inductive Cause where
  | trailingData
  | expectedDictionary
  | emptyInput
  | unexpectedCharacter
  | unexpectedEnd
  | characterInInteger
  | endInInteger
  | noDigits
  | leadingZero
  | integerTooLarge
  | tooManyLengthDigits
  | expectedLength
  | expectedColon
  | endInLength
  | stringTooLong
  | truncatedString
  | unterminatedList
  | keyNotBytes
  | unterminatedDictionary
  | duplicateKey
  | nestingTooDeep
deriving DecidableEq, Repr

/-- The limits of the reader are the only causes that do not make an input malformed. -/
def Cause.refusal : Cause → Refusal
  | integerTooLarge | tooManyLengthDigits | stringTooLong | nestingTooDeep => .unsupported
  | _ => .invalid

/-- A cause in words. -/
def Cause.message : Cause → String
  | trailingData => "trailing data after value"
  | expectedDictionary => "expected a dictionary"
  | emptyInput => "empty input"
  | unexpectedCharacter => "unexpected character"
  | unexpectedEnd => "unexpected end of input"
  | characterInInteger => "unexpected character in integer"
  | endInInteger => "unexpected end of input in integer"
  | noDigits => "integer has no digits"
  | leadingZero => "integer has a leading zero"
  | integerTooLarge => "integer does not fit in 64 bits"
  | tooManyLengthDigits => "byte string length has too many digits"
  | expectedLength => "expected byte string length"
  | expectedColon => "expected ':' after byte string length"
  | endInLength => "unexpected end of input in byte string length"
  | stringTooLong => "byte string is too long"
  | truncatedString => "byte string is truncated"
  | unterminatedList => "unterminated list"
  | keyNotBytes => "dictionary key must be a byte string"
  | unterminatedDictionary => "unterminated dictionary"
  | duplicateKey => "duplicate dictionary key"
  | nestingTooDeep => "nesting too deep"

/-- Where and why an input is refused. -/
structure DecodeError where
  offset : Nat
  cause : Cause
deriving DecidableEq, Repr

namespace DecodeError

def refusal (e : DecodeError) : Refusal :=
  e.cause.refusal

/-- The word for the kind of refusal. -/
def kind (e : DecodeError) : String :=
  match e.refusal with
  | .invalid => "invalid"
  | .unsupported => "unsupported"

def message (e : DecodeError) : String :=
  e.kind ++ " bencode at offset " ++ toString e.offset ++ ": " ++ e.cause.message

end DecodeError

end Bencode
end Kademlia
