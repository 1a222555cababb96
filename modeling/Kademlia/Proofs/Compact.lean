import Kademlia.Compact

namespace Kademlia

/-!
# Reading compact forms back

Every peer and every contact is read back from its compact form.  A list of contacts comes back with
those of the one family that it is written for, and a list of peers whole.  Whatever is read as a
list of contacts of a family holds no others (`decodeContacts_spec`).
-/

section Bytes

variable {α : Type} {size : Nat} {form : α → Bytes} {items : List α}

theorem Bytes.length_flatMap (even : ∀ item ∈ items, (form item).length = size) :
    (items.flatMap form).length = items.length * size := by
  induction items with
  | nil => exact (Nat.zero_mul size).symm
  | cons item rest ih =>
    have hRest := ih fun other among => even other (List.mem_cons_of_mem item among)
    rw [List.flatMap_cons, List.length_append, hRest, even item List.mem_cons_self,
      List.length_cons, Nat.succ_mul, Nat.add_comm]

/-- Pieces of one length that are written one after another are cut apart where they were put
together. -/
theorem Bytes.chunks_flatMap (even : ∀ item ∈ items, (form item).length = size) :
    Bytes.chunks size items.length (items.flatMap form) = items.map form := by
  induction items with
  | nil => rfl
  | cons item rest ih =>
    have hFirst := even item List.mem_cons_self
    have hRest := ih fun other among => even other (List.mem_cons_of_mem item among)
    rw [List.length_cons, List.flatMap_cons, Bytes.chunks, ← hFirst, List.take_left,
      List.drop_left, hFirst, hRest, List.map_cons]

theorem Bytes.length_chunks (size count : Nat) (bytes : Bytes) :
    (Bytes.chunks size count bytes).length = count := by
  induction count generalizing bytes with
  | zero => rfl
  | succ count ih => rw [Bytes.chunks, List.length_cons, ih]

/-- All pieces are whole if there is enough to cut them from. -/
theorem Bytes.length_of_mem_chunks {count : Nat} {bytes : Bytes}
    (enough : count * size ≤ bytes.length) :
    ∀ piece ∈ Bytes.chunks size count bytes, piece.length = size := by
  induction count generalizing bytes with
  | zero => exact nofun
  | succ count ih =>
    rw [Nat.succ_mul] at enough
    refine List.forall_mem_cons.mpr ⟨?_, ih ?_⟩
    · exact List.length_take_of_le (by omega)
    · rw [List.length_drop]
      omega

end Bytes

namespace Compact

variable {family : Family} {contacts : List Contact}

/-! ## Peers -/

theorem length_octets (ip : Ip) : ip.octets.length + 2 = peerLength ip.family := by
  cases ip with
  | v4 word => exact congrArg (· + 2) (BigEndian.length_encode 4 word.toNat)
  | v6 word => exact congrArg (· + 2) (BigEndian.length_encode 16 word.toNat)

theorem length_encodePeer (peer : Address) : (encodePeer peer).length = peerLength peer.family := by
  rw [encodePeer, List.length_append, BigEndian.length_encode]
  exact length_octets peer.ip

/-- The port is what the two octets behind those of the host address denote. -/
@[simp]
theorem decodePeer?_encodePeer (peer : Address) : decodePeer? (encodePeer peer) = some peer := by
  have hLength := length_encodePeer peer
  have hFits : (encodePeer peer).length = peerLength .v4 ∨
      (encodePeer peer).length = peerLength .v6 := by
    rw [hLength]
    cases peer.family with
    | v4 => exact .inl rfl
    | v6 => exact .inr rfl
  have hSplit : (encodePeer peer).length - 2 = peer.ip.octets.length := by
    rw [hLength, Address.family, ← length_octets]
    rfl
  have hPort : UInt16.ofNat (BigEndian.decode (BigEndian.encode 2 peer.port.toNat)) =
      peer.port := by
    have hBound : peer.port.toNat < BigEndian.capacity 2 := peer.port.toNat_lt
    rw [BigEndian.decode_encode, Nat.mod_eq_of_lt hBound]
    exact UInt16.ofNat_toNat
  rw [decodePeer?, if_pos hFits]
  dsimp only
  rw [hSplit, encodePeer, List.take_left, List.drop_left, Ip.ofOctets?_octets, hPort]
  rfl

theorem decodePeers_map_encodePeer (peers : List Address) :
    decodePeers (peers.map fun peer => .bytes (encodePeer peer)) = .ok peers := by
  unfold decodePeers
  induction peers with
  | nil => rfl
  | cons peer rest ih =>
    have hFirst : decodePeer (.bytes (encodePeer peer)) = .ok peer := by
      rw [decodePeer]
      rw [decodePeer?_encodePeer]
    rw [List.map_cons, List.mapM_cons, hFirst, ih]
    rfl

/-! ## Contacts -/

theorem length_encodeContact (contact : Contact) :
    (encodeContact contact).length = contactLength contact.family := by
  rw [encodeContact, List.length_append, NodeId.length_toBytes, length_encodePeer]
  rfl

@[simp]
theorem decodeContact?_encodeContact (contact : Contact) :
    decodeContact? (encodeContact contact) = some contact := by
  have hWidth : NodeId.width = contact.id.toBytes.length := (NodeId.length_toBytes contact.id).symm
  rw [decodeContact?, encodeContact, hWidth, List.take_left, List.drop_left,
    NodeId.ofBytes?_toBytes, decodePeer?_encodePeer]
  rfl

theorem length_of_mem_filter {contact : Contact}
    (member : contact ∈ contacts.filter (·.family = family)) :
    (encodeContact contact).length = contactLength family := by
  rw [length_encodeContact, of_decide_eq_true (List.mem_filter.mp member).2]

theorem length_encodeContacts (family : Family) (contacts : List Contact) :
    (encodeContacts family contacts).length =
      (contacts.filter (·.family = family)).length * contactLength family :=
  Bytes.length_flatMap fun _ => length_of_mem_filter

/-- Of the contacts that are given, those of the family are written and read back, in order. -/
theorem decodeContacts_encodeContacts (family : Family) (contacts : List Contact) :
    decodeContacts family (encodeContacts family contacts) =
      .ok (contacts.filter (·.family = family)) := by
  have hLength := length_encodeContacts family contacts
  have hPositive : 0 < contactLength family := by
    cases family <;> decide
  have hWhole : ¬ (encodeContacts family contacts).length % contactLength family ≠ 0 := by
    rw [hLength, Nat.mul_mod_left]
    exact not_not_intro rfl
  have hRead : decodeContact? ∘ encodeContact = some := funext decodeContact?_encodeContact
  unfold decodeContacts
  dsimp only
  rw [if_neg hWhole, hLength, Nat.mul_div_cancel _ hPositive, encodeContacts,
    Bytes.chunks_flatMap fun _ => length_of_mem_filter, List.filterMap_map, hRead,
    List.filterMap_some]

theorem family_of_decodePeer? {bytes : Bytes} {peer : Address}
    (length : bytes.length = peerLength family) (read : decodePeer? bytes = some peer) :
    peer.family = family := by
  rw [decodePeer?] at read
  split at read
  · rcases Option.map_eq_some_iff.mp read with ⟨ip, found, rfl⟩
    have hOctets : (bytes.take (bytes.length - 2)).length = peerLength family - 2 := by
      rw [List.length_take, length]
      exact Nat.min_eq_left (Nat.sub_le _ _)
    rw [Ip.ofOctets?, hOctets] at found
    cases family with
    | v4 =>
      rw [if_pos (by rfl)] at found
      rcases Option.some.inj found with rfl
      rfl
    | v6 =>
      rw [if_neg (by decide), if_pos (by rfl)] at found
      rcases Option.some.inj found with rfl
      rfl
  · cases read

theorem family_of_decodeContact? {bytes : Bytes} {contact : Contact}
    (length : bytes.length = contactLength family) (read : decodeContact? bytes = some contact) :
    contact.family = family := by
  rcases Option.bind_eq_some_iff.mp read with ⟨id, -, read⟩
  rcases Option.bind_eq_some_iff.mp read with ⟨address, found, same⟩
  rcases Option.some.inj same with rfl
  refine family_of_decodePeer? ?_ found
  rw [List.length_drop, length, contactLength, Nat.add_sub_cancel_left]

/-- The contacts that are read are of the family that was asked for, and no more than there is room
for. -/
theorem decodeContacts_spec {bytes : Bytes} (read : decodeContacts family bytes = .ok contacts) :
    (∀ contact ∈ contacts, contact.family = family) ∧
      contacts.length * contactLength family ≤ bytes.length := by
  unfold decodeContacts at read
  dsimp only at read
  split at read
  · cases read
  · rcases Except.ok.inj read with rfl
    have hWhole := Nat.div_mul_le_self bytes.length (contactLength family)
    constructor
    · intro contact listed
      rcases List.mem_filterMap.mp listed with ⟨piece, cut, found⟩
      exact family_of_decodeContact? (Bytes.length_of_mem_chunks hWhole piece cut) found
    · have hFew := List.length_filterMap_le decodeContact?
        (Bytes.chunks (contactLength family) (bytes.length / contactLength family) bytes)
      rw [Bytes.length_chunks] at hFew
      exact Nat.le_trans (Nat.mul_le_mul_right _ hFew) hWhole

end Compact
end Kademlia
