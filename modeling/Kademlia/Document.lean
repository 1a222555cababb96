namespace Kademlia

/-!
Structured documents, in which settings and identifiers are stored.  A document is what is left of
a JSON text once it is parsed.
-/

/-- A document.  A number is `mantissa` divided by ten to the power `decimals`, as it was written:
with decimals, it is no whole number even if they are all zero.  A number written with an exponent
counts as one with decimals. -/
inductive Document where
  | null
  | bool (value : Bool)
  | number (mantissa : Int) (decimals : Nat)
  | text (content : String)
  | list (items : List Document)
  | fields (entries : List (String × Document))
deriving Inhabited

namespace Document

/-- The document that holds a natural number. -/
def ofNat (n : Nat) : Document :=
  .number (.ofNat n) 0

/-- A natural number below a limit, if the document is one. -/
def asNatBelow? (limit : Nat) : Document → Option Nat
  | number mantissa 0 => if 0 ≤ mantissa ∧ mantissa < limit then some mantissa.toNat else none
  | _ => none

def asBool? : Document → Option Bool
  | bool value => some value
  | _ => none

/-- A text that may be absent: `null` says that it is. -/
def asOptionalText? : Document → Option (Option String)
  | null => some none
  | text content => some (some content)
  | _ => none

@[simp]
theorem asNatBelow?_ofNat {limit n : Nat} (below : n < limit) :
    (ofNat n).asNatBelow? limit = some n := by
  simp [ofNat, asNatBelow?, below]

end Document
end Kademlia
