import Kademlia.Document
import Kademlia.NodeId

namespace Kademlia
namespace NodeId

/-!
Identifiers in documents: a list of their twenty octets, or a text whose UTF-8 form is twenty octets
long.
-/

/-- Why a document is no identifier. -/
inductive DocumentError where
  | length (found : Nat)
  | form
deriving DecidableEq, Repr

/-- A cause in words; a document of another form is refused without any. -/
def DocumentError.message? : DocumentError → Option String
  | length found => some ("invalid length " ++ toString found ++ ", expected " ++ toString width)
  | form => none

/-- The octets that a document holds. -/
def octets? : Document → Option Bytes
  | .text content => some (Bytes.ofString content)
  | .list items => items.mapM fun item => (item.asNatBelow? 256).map UInt8.ofNat
  | _ => none

/-- The identifier that a document holds. -/
def ofDocument (document : Document) : Except DocumentError NodeId :=
  match octets? document with
  | none => .error .form
  | some octets =>
    match ofBytes? octets with
    | some id => .ok id
    | none => .error (.length octets.length)

/-- The list of the octets of an identifier. -/
def toDocument (id : NodeId) : Document :=
  .list (id.toBytes.map fun b => .ofNat b.toNat)

end NodeId
end Kademlia
