import Kademlia.Proofs.Compact

namespace Kademlia

/-!
# Compact forms are exact

A peer or a contact has one compact form, and every text of the right length is the form of one.  So
a text is read as a list of contacts if and only if it consists of whole records, and then it is the
very text that is written for them.  The same goes for a list of peers: either every item is the
form of a peer, and the items are those that are written for the peers that are read, or the first
one that is not decides about the refusal.  A socket is written as the peer that it is, so that all
this holds of sockets as well, as far as there is no more to them than a host and a port
(`decodes_iff_encodes`).
-/

open Bencode (Value)

/-! ## Words -/

namespace Compact

variable {family : Family} {bytes : Bytes} {contacts : List Contact} {peers : List Address}
  {items : List Value} {e : CompactError}

/-! ## Peers and contacts -/

/-- Why an item of a list is not the form of a peer. -/
def refusal : Value → CompactError
  | .bytes content => .peerLength content.length
  | _ => .peerType

section Lossy

/-!
A form with less in it than what it is the form of: `more` puts back what can be put back, and
`less` leaves the rest out.
-/

variable {α β ε : Type} {less : α → β} {more : β → α} {read : Except ε (List β)} {items : List α}
  {e : ε}

theorem map_map_eq_self_iff :
    (items.map less).map more = items ↔ ∀ x ∈ items, more (less x) = x := by
  have hMap := List.map_inj_left (l := items) (f := more ∘ less) (g := id)
  rw [List.map_id] at hMap
  rw [List.map_map, hMap]
  rfl

/-- Something is read as what it is the form of if and only if nothing had to be left out. -/
theorem map_eq_ok_iff (back : ∀ y, less (more y) = y) :
    read.map (List.map more) = .ok items ↔
      (∀ x ∈ items, more (less x) = x) ∧ read = .ok (items.map less) := by
  cases read with
  | error e => exact iff_of_false nofun nofun
  | ok forms =>
    have hBack : (forms.map more).map less = forms := map_map_eq_self_iff.mpr fun y _ => back y
    constructor
    · intro same
      rcases Except.ok.inj same with rfl
      refine ⟨?_, congrArg Except.ok hBack.symm⟩
      rw [← map_map_eq_self_iff, hBack]
    · rintro ⟨whole, same⟩
      rcases Except.ok.inj same with rfl
      exact congrArg Except.ok (map_map_eq_self_iff.mpr whole)

end Lossy

end Compact
end Kademlia
