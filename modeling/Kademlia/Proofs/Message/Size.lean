import Kademlia.Proofs.Message.RoundTrip

namespace Kademlia

/-!
# How long a response is

The size of what is written follows from the sizes of its parts: a byte string takes its length in
decimal and a colon besides its content, a list or a dictionary two octets besides its items.  In a
response to the search for peers, everything but the lists is of one size.
-/

open Bencode (Dictionary Value)

namespace Bencode

/-- The size of a byte string in written form, by that of its content. -/
def stringSize (length : Nat) : Nat :=
  (Decimal.digits length).length + 1 + length

theorem length_encodeBytes (content : Bytes) :
    (encodeBytes content).length = stringSize content.length := by
  rw [encodeBytes, List.length_append, List.length_cons, stringSize]
  omega

theorem stringSize_mono {m n : Nat} (le : m ≤ n) : stringSize m ≤ stringSize n := by
  have hDigits := length_digits_le_length_digits le
  rw [stringSize, stringSize]
  omega

/-- Byte strings of one length are written to one size. -/
theorem length_encodeItems {strings : List Bytes} {length : Nat}
    (even : ∀ string ∈ strings, string.length = length) :
    (Value.encodeItems (strings.map .bytes)).length = strings.length * stringSize length := by
  induction strings with
  | nil => exact (Nat.zero_mul _).symm
  | cons string rest ih =>
    have hRest := ih fun other among => even other (List.mem_cons_of_mem string among)
    rw [List.map_cons, Value.encodeItems, List.length_append, hRest, Value.encode,
      length_encodeBytes, even string List.mem_cons_self, List.length_cons, Nat.succ_mul,
      Nat.add_comm]

/-- The size of an entry in written form; one without a value is not written. -/
def entrySize (key : Bytes) : Option Value → Nat
  | none => 0
  | some value => stringSize key.length + value.encode.length

/-- The size of entries in written form, one after another. -/
def entriesSize : List (Bytes × Option Value) → Nat
  | [] => 0
  | item :: rest => entrySize item.1 item.2 + entriesSize rest

theorem length_encodeEntries (items : List (Bytes × Option Value)) :
    (Value.encodeEntries (Dictionary.present items)).length = entriesSize items := by
  induction items with
  | nil => rfl
  | cons item rest ih =>
    rcases item with ⟨key, content⟩
    rw [entriesSize, ← ih]
    cases content with
    | none =>
      rw [entrySize, Nat.zero_add]
      rfl
    | some value =>
      have hPresent : Dictionary.present ((key, some value) :: rest) =
          (key, value) :: Dictionary.present rest := rfl
      rw [hPresent, Value.encodeEntries, List.length_append, List.length_append,
        length_encodeBytes, entrySize]

theorem length_encode_ofEntries {items : List (Bytes × Option Value)}
    (distinct : (items.map (·.1)).Nodup) :
    (Dictionary.ofEntries items).encode.length = entriesSize items + 2 := by
  rw [Dictionary.encode, Dictionary.toValue, Dictionary.entries_ofEntries distinct, Value.encode,
    List.length_append, List.length_cons, length_encodeEntries]
  rfl

end Bencode

open Bencode

namespace Response

/-- The size of a list of contacts in a response; an empty one is left out. -/
def contactsSize (key : Key) (family : Family) (count : Nat) : Nat :=
  if count = 0 then 0
  else stringSize key.bytes.length + stringSize (count * Compact.contactLength family)

/-- The size of a list of peers in a response; an empty one is left out. -/
def peersSize (family : Family) (count : Nat) : Nat :=
  if count = 0 then 0
  else stringSize Key.values.bytes.length + count * stringSize (Compact.peerLength family) + 2

theorem entrySize_contacts {key : Key} {family : Family} {contacts : List Contact}
    (pure : ∀ contact ∈ contacts, contact.family = family) :
    entrySize key.bytes
      (if contacts.isEmpty then none else some (.bytes (Compact.encodeContacts family contacts))) =
        contactsSize key family contacts.length := by
  have hAll : contacts.filter (·.family = family) = contacts :=
    List.filter_eq_self.mpr fun contact member => decide_eq_true (pure contact member)
  rw [contactsSize]
  cases contacts with
  | nil => rfl
  | cons contact rest =>
    rw [if_neg (by simp), if_neg (by simp), entrySize, Value.encode, length_encodeBytes,
      Compact.length_encodeContacts, hAll]

theorem entrySize_peers {family : Family} {peers : List Address}
    (pure : ∀ peer ∈ peers, peer.family = family) :
    entrySize Key.values.bytes (if peers.isEmpty then none else some (Compact.encodePeers peers)) =
      peersSize family peers.length := by
  have hEven : ∀ string ∈ peers.map Compact.encodePeer,
      string.length = Compact.peerLength family := by
    intro string member
    rcases List.mem_map.mp member with ⟨peer, listed, rfl⟩
    rw [Compact.length_encodePeer, pure peer listed]
  have hItems : peers.map (fun peer => Value.bytes (Compact.encodePeer peer)) =
      (peers.map Compact.encodePeer).map .bytes := (List.map_map ..).symm
  rw [peersSize]
  cases peers with
  | nil => rfl
  | cons peer rest =>
    rw [if_neg (by simp), if_neg (by simp), entrySize, Compact.encodePeers, hItems, Value.encode,
      List.length_append, List.length_cons, length_encodeItems hEven, List.length_map,
      List.length_singleton]
    omega

/-- The size of a response that hands out a token of four octets. -/
theorem length_encode_toDictionary {response : Response} {token : Bytes} {family : Family}
    (handed : response.token = some token) (short : token.length = 4)
    (nodes : ∀ contact ∈ response.nodes, contact.family = .v4)
    (nodes6 : ∀ contact ∈ response.nodes6, contact.family = .v6)
    (values : ∀ peer ∈ response.values, peer.family = family) :
    response.toDictionary.encode.length =
      42 + contactsSize .nodes .v4 response.nodes.length +
        contactsSize .nodes6 .v6 response.nodes6.length +
        peersSize family response.values.length := by
  have hId : entrySize Key.id.bytes (some response.sender.toValue) = 27 := by
    rw [entrySize, NodeId.toValue, Value.encode, length_encodeBytes, NodeId.length_toBytes]
    decide +kernel
  have hToken : entrySize Key.token.bytes (response.token.map Value.bytes) = 13 := by
    rw [handed, Option.map_some, entrySize, Value.encode, length_encodeBytes, short]
    decide +kernel
  have hKeys := Key.nodup_bytes [.id, .nodes, .nodes6, .token, .values] (by decide)
  rw [toDictionary, length_encode_ofEntries (by exact hKeys)]
  simp only [entriesSize]
  rw [hId, entrySize_contacts nodes, entrySize_contacts nodes6, hToken, entrySize_peers values]
  omega

end Response

namespace Message

open Response (contactsSize peersSize)

/-- The size of a response to the search for peers, by that of its transaction, the numbers of
contacts of either family and the number of peers, which are of one family. -/
def answerSize (family : Family) (transaction nodes nodes6 peers : Nat) : Nat :=
  65 + stringSize transaction + contactsSize .nodes .v4 nodes + contactsSize .nodes6 .v6 nodes6 +
    peersSize family peers

theorem length_encode_answer {response : Response} {token : Bytes} {family : Family}
    (transaction : Bytes) (handed : response.token = some token) (short : token.length = 4)
    (nodes : ∀ contact ∈ response.nodes, contact.family = .v4)
    (nodes6 : ∀ contact ∈ response.nodes6, contact.family = .v6)
    (values : ∀ peer ∈ response.values, peer.family = family) :
    (ofBody transaction (.response response)).encode.length =
      answerSize family transaction.length response.nodes.length response.nodes6.length
        response.values.length := by
  have hReply : entrySize Key.reply.bytes (some response.toDictionary.toValue) =
      3 + response.toDictionary.encode.length := by
    rw [entrySize, Dictionary.encode]
    exact congrArg (· + _) (by decide +kernel)
  have hTransaction : entrySize Key.transaction.bytes (some (.bytes transaction)) =
      3 + stringSize transaction.length := by
    rw [entrySize, Value.encode, length_encodeBytes]
    exact congrArg (· + _) (by decide +kernel)
  have hVersion : entrySize Key.version.bytes ((some ownVersion).map Value.bytes) = 9 := by
    decide +kernel
  have hKind : entrySize Key.kind.bytes (some (.bytes Key.reply.bytes)) = 6 := by
    decide +kernel
  have hKeys := Key.nodup_bytes [.reply, .transaction, .version, .kind] (by decide)
  rw [encode, toDictionary, length_encode_ofEntries (by exact hKeys)]
  simp only [Body.entries, Body.kind, ofBody, List.cons_append, List.nil_append, entriesSize]
  rw [hReply, hTransaction, hVersion, hKind,
    Response.length_encode_toDictionary handed short nodes nodes6 values, answerSize]
  omega

/-! ## Bounds -/

theorem contactsSize_mono (key : Key) (family : Family) {m n : Nat} (le : m ≤ n) :
    contactsSize key family m ≤ contactsSize key family n := by
  rw [contactsSize, contactsSize]
  by_cases none : m = 0
  · rw [if_pos none]
    exact Nat.zero_le _
  · rw [if_neg none, if_neg (by omega)]
    exact Nat.add_le_add_left (stringSize_mono (Nat.mul_le_mul_right _ le)) _

theorem peersSize_mono (family : Family) {m n : Nat} (le : m ≤ n) :
    peersSize family m ≤ peersSize family n := by
  rw [peersSize, peersSize]
  by_cases none : m = 0
  · rw [if_pos none]
    exact Nat.zero_le _
  · rw [if_neg none, if_neg (by omega)]
    have hPeers := Nat.mul_le_mul_right (stringSize (Compact.peerLength family)) le
    omega

/-- The more is listed, the longer a response is. -/
theorem answerSize_mono (family : Family) {t t' a a' b b' c c' : Nat} (transaction : t ≤ t')
    (nodes : a ≤ a') (nodes6 : b ≤ b') (peers : c ≤ c') :
    answerSize family t a b c ≤ answerSize family t' a' b' c' := by
  have hTransaction := stringSize_mono transaction
  have hNodes := contactsSize_mono .nodes .v4 nodes
  have hNodes6 := contactsSize_mono .nodes6 .v6 nodes6
  have hPeers := peersSize_mono family peers
  rw [answerSize, answerSize]
  omega

end Message
end Kademlia
