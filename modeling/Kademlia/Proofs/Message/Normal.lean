import Kademlia.LocalNode.Basic
import Kademlia.Proofs.Bencode.Padding
import Kademlia.Proofs.Message.Queries
import Mathlib.Data.List.Perm.Basic

namespace Kademlia

/-!
# Messages as they are written again

The reader tolerates much that is not written again: entries that nobody asks for, families without a
name, zeros in front of a length, octets that are no text, a version that is no byte string.  Still
the message that it makes of all this can be written and read back.  Nothing of it is lost then, and
what is written stays the same from there on.

Only a message of an unfamiliar kind is a dictionary as it came.  When it is written, the transaction,
the version and the kind go to the end, and a version that is no byte string is left out.

Most of what a message has to be like for that, the reader has seen to (`Message.Regular`).  What is
left is the text of a refusal, since a replacement character takes more room than the octets that it
stands for.
-/

open Bencode (Dictionary Value Entry Sound)

/-! ## What was read -/

namespace Bencode

variable {depth : Nat} {data key : Bytes} {d : Dictionary} {value : Value}

theorem sound_of_decodeDictionary (read : decodeDictionary data = .ok d) : Sound 0 d.toValue :=
  ((derives_iff_padded d.toValue).mp
    (decode_eq_ok_iff.mp (decodeDictionary_eq_ok_iff.mp read))).1

/-- A dictionary is written in no more octets than it was read from. -/
theorem length_encode_le_of_decodeDictionary (read : decodeDictionary data = .ok d) :
    d.encode.length ≤ data.length := by
  rcases ((derives_iff_padded d.toValue).mp
    (decode_eq_ok_iff.mp (decodeDictionary_eq_ok_iff.mp read))).2 with ⟨zeros, padded⟩
  exact Nat.le_trans (Nat.le_add_right _ zeros) (Nat.le_of_eq padded.exceeds.1.symm)

namespace Dictionary

theorem mem_of_get? (found : d.get? key = some value) : (key, value) ∈ d.entries := by
  rcases Option.map_eq_some_iff.mp found with ⟨entry, first, rfl⟩
  have hKey := List.find?_some first
  rw [← of_decide_eq_true hKey]
  exact List.mem_of_find?_eq_some first

theorem length_encode_le_of_mem {entries : List Entry} (member : (key, value) ∈ entries) :
    value.encode.length ≤ (Value.encodeEntries entries).length := by
  induction entries with
  | nil => cases member
  | cons entry rest ih =>
    rw [Value.encodeEntries, List.length_append, List.length_append]
    rcases List.mem_cons.mp member with rfl | later
    · dsimp only
      omega
    · exact Nat.le_trans (ih later) (Nat.le_add_left _ _)

end Dictionary

theorem Dictionary.get?_of_getBytes? {content : Bytes} (found : d.getBytes? key = some content) :
    d.get? key = some (.bytes content) := by
  rcases Option.bind_eq_some_iff.mp found with ⟨value, stored, seen⟩
  cases value with
  | bytes other =>
    rcases Option.some.inj seen with rfl
    exact stored
  | integer => cases seen
  | list => cases seen
  | dict => cases seen

theorem Sound.get? (sound : Sound depth d.toValue) (found : d.get? key = some value) :
    Sound (depth + 1) value :=
  ((sound_dict_iff.mp sound).2.2 _ (Dictionary.mem_of_get? found)).2

theorem Sound.getBytes? {content : Bytes} (sound : Sound depth d.toValue)
    (found : d.getBytes? key = some content) : content.length ≤ 2147483647 :=
  (sound_bytes_iff.mp (sound.get? (Dictionary.get?_of_getBytes? found))).2

theorem Sound.getDict? {inner : Dictionary} (sound : Sound depth d.toValue)
    (found : d.getDict? key = some inner) : Sound (depth + 1) inner.toValue := by
  rcases Option.bind_eq_some_iff.mp found with ⟨value, stored, seen⟩
  cases value with
  | dict entries =>
    rcases Option.some.inj seen with rfl
    exact sound.get? stored
  | bytes => cases seen
  | integer => cases seen
  | list => cases seen

end Bencode

/-! ## Text -/

/-- A character takes at most four octets, and stands for at least one. -/
theorem Utf8.length_lossyChars_le (bytes : Bytes) :
    ((lossyChars bytes).flatMap String.utf8EncodeChar).length ≤ 4 * bytes.length := by
  induction bytes using lossyChars.induct with
  | case1 => rw [lossyChars]; exact Nat.zero_le _
  | case2 b rest c found ih =>
    have hSize := c.utf8Size_le_four
    rw [lossyChars, found]
    dsimp only
    rw [List.flatMap_cons, List.length_append, String.length_utf8EncodeChar, List.length_cons]
    rw [List.length_drop] at ih
    omega
  | case3 b rest found ih =>
    have hSize := replacement.utf8Size_le_four
    rw [lossyChars, found]
    dsimp only
    rw [List.flatMap_cons, List.length_append, String.length_utf8EncodeChar, List.length_cons]
    rw [List.length_drop] at ih
    omega

theorem Utf8.length_lossy_le (bytes : Bytes) :
    (Bytes.ofString (lossy bytes)).length ≤ 4 * bytes.length := by
  rw [Bytes.ofString, lossy, String.toList_ofList]
  exact length_lossyChars_le bytes

/-! ## Queries and answers -/

section Bodies

variable {depth : Nat} {d : Dictionary}

theorem Query.ne_zero_of_readPort {port : Option UInt16} (read : readPort d = .ok port) :
    port ≠ some 0 := by
  rw [readPort] at read
  split at read
  · rcases Except.ok.inj read with rfl
    intro zero
    cases zero
  · split at read
    · rename_i number announced
      split at read
      · rename_i bounds
        rcases Except.ok.inj read with rfl
        intro zero
        have hNumber := congrArg UInt16.toNat (Option.some.inj zero)
        rw [UInt16.toNat_ofNat_of_lt' (by have := bounds.2; omega)] at hNumber
        have hZero : (0 : UInt16).toNat = 0 := rfl
        omega
      · cases read
    · cases read

theorem Query.length_le_of_readToken {token : Bytes} (sound : Sound depth d.toValue)
    (read : readToken d = .ok token) : token.length ≤ 2147483647 := by
  rw [readToken] at read
  split at read
  · rename_i content found
    rcases Except.ok.inj read with rfl
    exact sound.getBytes? found
  · cases read

/-- A query that was read can be written. -/
theorem Query.regular_of_ofArguments {method : Bytes} {q : Query}
    (short : method.length ≤ 2147483647) (sound : Sound depth d.toValue)
    (read : ofArguments method d = .ok q) : q.Regular := by
  rw [ofArguments] at read
  split at read
  · rcases Bencode.bind_eq_ok_iff.mp read with ⟨sender, -, same⟩
    rcases Except.ok.inj same with rfl
    trivial
  rename_i ping
  split at read
  · rcases Bencode.bind_eq_ok_iff.mp read with ⟨sender, -, read⟩
    rcases Bencode.bind_eq_ok_iff.mp read with ⟨target, -, same⟩
    rcases Except.ok.inj same with rfl
    trivial
  rename_i findNode
  split at read
  · rcases Bencode.bind_eq_ok_iff.mp read with ⟨sender, -, read⟩
    rcases Bencode.bind_eq_ok_iff.mp read with ⟨infoHash, -, same⟩
    rcases Except.ok.inj same with rfl
    trivial
  rename_i getPeers
  split at read
  · rcases Bencode.bind_eq_ok_iff.mp read with ⟨port, readPort, read⟩
    rcases Bencode.bind_eq_ok_iff.mp read with ⟨sender, -, read⟩
    rcases Bencode.bind_eq_ok_iff.mp read with ⟨infoHash, -, read⟩
    rcases Bencode.bind_eq_ok_iff.mp read with ⟨token, readToken, same⟩
    rcases Except.ok.inj same with rfl
    exact ⟨ne_zero_of_readPort readPort, length_le_of_readToken sound readToken⟩
  rename_i announcePeer
  rcases Except.ok.inj read with rfl
  rw [readOther]
  split
  · trivial
  · refine ⟨fun known => ?_, short⟩
    cases known with
    | ping => exact ping
    | findNode => exact findNode
    | getPeers => exact getPeers
    | announcePeer => exact announcePeer

namespace Message

theorem readOptional_eq_ok {α : Type} {key : Key} {view : Value → Option α} {content : Option α}
    (read : readOptional d key view = .ok content) :
    ∀ a ∈ content, d.get? key.bytes >>= view = some a := by
  intro a has
  rw [readOptional] at read
  split at read
  · rcases Except.ok.inj read with rfl
    cases has
  · rename_i value stored
    split at read
    · rename_i found seen
      rcases Except.ok.inj read with rfl
      rcases Option.some.inj has with rfl
      rw [stored]
      exact seen
    · cases read

theorem contacts_of_readOptional {key : Key} {family : Family} {content : Option (List Contact)}
    (sound : Sound depth d.toValue)
    (read : readOptional d key (contacts? family) = .ok content) :
    (∀ contact ∈ content.getD [], contact.family = family) ∧
      (content.getD []).length * Compact.contactLength family ≤ 2147483647 := by
  cases content with
  | none => exact ⟨nofun, by rw [Option.getD_none, List.length_nil]; omega⟩
  | some contacts =>
    rcases Option.bind_eq_some_iff.mp (readOptional_eq_ok read contacts rfl) with
      ⟨value, stored, seen⟩
    rcases Option.bind_eq_some_iff.mp seen with ⟨bytes, bytesSeen, listed⟩
    have hShort : bytes.length ≤ 2147483647 :=
      sound.getBytes? (Option.bind_eq_some_iff.mpr ⟨value, stored, bytesSeen⟩)
    cases decoded : Compact.decodeContacts family bytes with
    | error error =>
      rw [decoded] at listed
      cases listed
    | ok others =>
      rw [decoded] at listed
      rcases Option.some.inj listed with rfl
      have hContacts := Compact.decodeContacts_spec decoded
      exact ⟨hContacts.1, Nat.le_trans hContacts.2 hShort⟩

/-- A response that was read can be written. -/
theorem regular_of_readResponse {r : Response} (sound : Sound depth d.toValue)
    (read : readResponse d = .ok r) : r.Regular := by
  rcases Bencode.bind_eq_ok_iff.mp read with ⟨sender, -, read⟩
  rcases Bencode.bind_eq_ok_iff.mp read with ⟨nodes, readNodes, read⟩
  rcases Bencode.bind_eq_ok_iff.mp read with ⟨nodes6, readNodes6, read⟩
  rcases Bencode.bind_eq_ok_iff.mp read with ⟨values, -, read⟩
  rcases Bencode.bind_eq_ok_iff.mp read with ⟨token, readToken, same⟩
  rcases Except.ok.inj same with rfl
  have hNodes := contacts_of_readOptional sound readNodes
  have hNodes6 := contacts_of_readOptional sound readNodes6
  exact ⟨hNodes.1, hNodes6.1, hNodes.2, hNodes6.2, fun content has =>
    sound.getBytes? (readOptional_eq_ok readToken content has)⟩

/-- The text of a refusal takes at most four times the room of the datagram that it came in. -/
theorem length_text_le {e : ErrorReply} (read : readField d .error errorReply? = .ok e) :
    (Bytes.ofString e.text).length ≤ 4 * d.encode.length := by
  rcases Option.bind_eq_some_iff.mp (readField_eq_ok_iff.mp read) with ⟨value, stored, seen⟩
  have hValue : value.encode.length ≤ d.encode.length := by
    have hInner := Dictionary.length_encode_le_of_mem (Dictionary.mem_of_get? stored)
    rw [Dictionary.encode, Dictionary.toValue, Value.encode, List.length_append, List.length_cons]
    omega
  unfold errorReply? at seen
  split at seen
  · rename_i code text
    rcases Option.some.inj seen with rfl
    have hText := Utf8.length_lossy_le text
    simp only [Value.encode, Value.encodeItems, Bencode.encodeBytes, List.length_append,
      List.length_cons] at hValue
    dsimp only
    omega
  · cases seen

end Message
end Bodies

/-! ## Whole messages -/

namespace Message

variable {data transaction kind : Bytes} {d : Dictionary} {body : Body} {m : Message}

theorem map_eq_ok_iff {α β : Type} {result : Except MessageError α} {f : α → β} {b : β} :
    f <$> result = .ok b ↔ ∃ a, result = .ok a ∧ f a = b := by
  cases result with
  | error error => exact iff_of_false nofun nofun
  | ok a =>
    constructor
    · intro same
      exact ⟨a, rfl, Except.ok.inj same⟩
    · rintro ⟨other, same, rfl⟩
      rw [Except.ok.inj same]
      rfl

/-- What a body was read from, by its kind. -/
theorem readBody_cases (read : readBody d transaction kind = .ok body) :
    (kind = Key.method.bytes ∧ ∃ q, body = .query q ∧ readQuery d transaction = .ok q) ∨
    (kind = Key.reply.bytes ∧ ∃ reply r, body = .response r ∧
      readField d .reply Value.asDict? = .ok reply ∧ readResponse reply = .ok r) ∨
    (kind = Key.error.bytes ∧ ∃ e, body = .error e ∧ readField d .error errorReply? = .ok e) ∨
    ((kind ≠ Key.method.bytes ∧ kind ≠ Key.reply.bytes ∧ kind ≠ Key.error.bytes) ∧
      body = .other kind d) := by
  rw [readBody] at read
  split at read
  · rename_i query
    rcases map_eq_ok_iff.mp read with ⟨q, found, rfl⟩
    exact .inl ⟨query, q, rfl, found⟩
  rename_i query
  split at read
  · rename_i response
    rcases Bencode.bind_eq_ok_iff.mp read with ⟨reply, stored, read⟩
    rcases map_eq_ok_iff.mp read with ⟨r, found, rfl⟩
    exact .inr (.inl ⟨response, reply, r, rfl, stored, found⟩)
  rename_i response
  split at read
  · rename_i error
    rcases map_eq_ok_iff.mp read with ⟨e, found, rfl⟩
    exact .inr (.inr (.inl ⟨error, e, rfl, found⟩))
  · rename_i error
    exact .inr (.inr (.inr ⟨⟨query, response, error⟩, (Except.ok.inj read).symm⟩))

theorem readQuery_eq_ok {q : Query} (read : readQuery d transaction = .ok q) :
    ∃ method arguments, d.getBytes? Key.method.bytes = some method ∧
      readField d .arguments Value.asDict? = .ok arguments ∧
      Query.ofArguments method arguments = .ok q := by
  rcases Bencode.bind_eq_ok_iff.mp read with ⟨method, named, read⟩
  rcases Bencode.bind_eq_ok_iff.mp read with ⟨arguments, stored, read⟩
  refine ⟨method, arguments, readField_eq_ok_iff.mp named, stored, ?_⟩
  split at read
  · rename_i found
    rw [found]
    exact congrArg Except.ok (Except.ok.inj read)
  · cases read

/-- The dictionary that a message was read from. -/
structure IsFrom (m : Message) (d : Dictionary) : Prop where
  transaction : d.getBytes? Key.transaction.bytes = some m.transaction
  version : d.getBytes? Key.version.bytes = m.version
  kind : d.getBytes? Key.kind.bytes = some m.body.kind
  body : readBody d m.transaction m.body.kind = .ok m.body

theorem isFrom_of_decode (read : decode data = .ok m) :
    ∃ d, Bencode.decodeDictionary data = .ok d ∧ m.IsFrom d := by
  cases taken : Bencode.decodeDictionary data with
  | error error =>
    rw [decode, taken] at read
    cases read
  | ok d =>
    cases found : d.getBytes? Key.transaction.bytes with
    | none =>
      rw [decode, taken] at read
      dsimp only at read
      rw [ofDictionary, found] at read
      cases read
    | some transaction =>
      rw [decode_of_dictionary taken found] at read
      rcases Bencode.bind_eq_ok_iff.mp read with ⟨kind, hKind, read⟩
      rcases Bencode.bind_eq_ok_iff.mp read with ⟨body, hBody, same⟩
      rcases Except.ok.inj same with rfl
      have hSame : body.kind = kind := by
        rcases readBody_cases hBody with
          ⟨rfl, q, rfl, -⟩ | ⟨rfl, reply, r, rfl, -⟩ | ⟨rfl, e, rfl, -⟩ | ⟨-, rfl⟩ <;> rfl
      subst hSame
      exact ⟨d, rfl, found, rfl, readField_eq_ok_iff.mp hKind, hBody⟩

/-- The message that is read when this one was written: a dictionary of an unfamiliar kind comes back
as it was written, and everything else as it was. -/
def normal (m : Message) : Message :=
  match m.body with
  | .other kind _ => { m with body := .other kind m.toDictionary }
  | _ => m

theorem normal_of_ne (familiar : ∀ kind payload, m.body ≠ .other kind payload) : m.normal = m := by
  rw [normal]
  cases about : m.body with
  | query => rfl
  | response => rfl
  | error => rfl
  | other kind payload => exact absurd about (familiar kind payload)

/-- The entries of a dictionary besides the transaction, the version and the kind. -/
def inner (payload : Dictionary) : List Entry :=
  payload.entries.filter fun entry =>
    !([Key.transaction.bytes, Key.version.bytes, Key.kind.bytes].contains entry.1)

theorem mem_inner {payload : Dictionary} {entry : Entry} :
    entry ∈ inner payload ↔ entry ∈ payload.entries ∧
      entry.1 ∉ [Key.transaction.bytes, Key.version.bytes, Key.kind.bytes] := by
  rw [inner, List.mem_filter, Bool.not_eq_true', List.contains_eq_mem, decide_eq_false_iff_not]

/-- A dictionary is written with the transaction, the version and the kind behind everything else. -/
theorem entries_toDictionary {payload : Dictionary} (about : m.body = .other kind payload)
    (distinct : payload.keys.Nodup) :
    m.toDictionary.entries = inner payload ++ Dictionary.present m.envelope := by
  have hDistinct : ∀ kind other, m.body = .other kind other → other.keys.Nodup := by
    intro again other same
    rw [about] at same
    rw [← (Body.other.inj same).2]
    exact distinct
  have hEntries : m.toDictionary.entries = Dictionary.present (m.body.entries ++ m.envelope) :=
    Dictionary.entries_ofEntries (nodup_keys hDistinct)
  rw [hEntries, Dictionary.present_append, about, Body.entries, Dictionary.present_map_some, inner]

namespace IsFrom

theorem transaction_short (isFrom : m.IsFrom d) (sound : Sound 0 d.toValue) :
    m.transaction.length ≤ 2147483647 :=
  sound.getBytes? isFrom.transaction

theorem version_short (isFrom : m.IsFrom d) (sound : Sound 0 d.toValue) :
    ∀ version ∈ m.version, version.length ≤ 2147483647 := by
  intro version has
  rw [← isFrom.version] at has
  exact sound.getBytes? has

theorem sound_toDictionary (isFrom : m.IsFrom d) (sound : Sound 0 d.toValue)
    (about : m.body = .other kind d) : Sound 0 m.toDictionary.toValue := by
  refine sound_of_entries (isFrom.transaction_short sound) (isFrom.version_short sound)
    (sound.getBytes? isFrom.kind) ?_
  rw [about, Body.entries]
  intro item member
  rcases List.mem_map.mp member with ⟨entry, kept, rfl⟩
  have hEntry := (Bencode.sound_dict_iff.mp sound).2.2 entry (List.mem_filter.mp kept).1
  exact Bencode.soundField_some hEntry.1 hEntry.2

theorem regular_of_other (isFrom : m.IsFrom d) (sound : Sound 0 d.toValue)
    (about : m.body = .other kind d)
    (unfamiliar : kind ≠ Key.method.bytes ∧ kind ≠ Key.reply.bytes ∧ kind ≠ Key.error.bytes) :
    m.normal.Regular := by
  have hLimits := Bencode.sound_zero_iff.mp (isFrom.sound_toDictionary sound about)
  have hCloses : m.toDictionary.entries =
      inner d ++ Dictionary.present { m with body := .other kind m.toDictionary }.envelope := by
    rw [entries_toDictionary about (Bencode.sound_dict_iff.mp sound).2.1, envelope, envelope, about]
    rfl
  rw [normal, about]
  refine ⟨isFrom.transaction_short sound, isFrom.version_short sound, ?_⟩
  exact ⟨unfamiliar, hLimits.1, hLimits.2, inner d, hCloses, fun _ listed => (mem_inner.mp listed).2⟩

/-- A message that was read from a datagram can be read back when it has been written. -/
theorem regular_normal (isFrom : m.IsFrom d) (sound : Sound 0 d.toValue)
    (short : d.encode.length ≤ LocalNode.maxDatagramLength) : m.normal.Regular := by
  have hTransaction := isFrom.transaction_short sound
  have hVersion := isFrom.version_short sound
  rcases readBody_cases isFrom.body with ⟨-, q, about, read⟩ | ⟨-, reply, r, about, stored, read⟩ |
    ⟨-, e, about, read⟩ | ⟨unfamiliar, about⟩
  · rcases readQuery_eq_ok read with ⟨method, arguments, named, stored, read⟩
    have hRegular : q.Regular := Query.regular_of_ofArguments (sound.getBytes? named)
      (sound.getDict? (readField_eq_ok_iff.mp stored)) read
    rw [normal_of_ne (by rw [about]; exact nofun)]
    refine ⟨hTransaction, hVersion, ?_⟩
    rw [about]
    exact hRegular
  · have hRegular : r.Regular :=
      regular_of_readResponse (sound.getDict? (readField_eq_ok_iff.mp stored)) read
    rw [normal_of_ne (by rw [about]; exact nofun)]
    refine ⟨hTransaction, hVersion, ?_⟩
    rw [about]
    exact hRegular
  · have hText : (Bytes.ofString e.text).length ≤ 2147483647 := by
      have hLength := length_text_le read
      rw [LocalNode.maxDatagramLength] at short
      omega
    rw [normal_of_ne (by rw [about]; exact nofun)]
    refine ⟨hTransaction, hVersion, ?_⟩
    rw [about]
    exact hText
  · exact isFrom.regular_of_other sound about unfamiliar

end IsFrom

/-- What is read back is written in the same way again. -/
theorem toDictionary_normal (regular : m.normal.Regular) :
    m.normal.toDictionary = m.toDictionary := by
  cases about : m.body with
  | other kind payload =>
    have hBody : m.normal.body = .other kind m.toDictionary := by
      rw [normal, about]
    have hHolds := regular.body
    rw [hBody] at hHolds
    exact regular.toDictionary_other hBody hHolds
  | query => rw [normal_of_ne (by rw [about]; exact nofun)]
  | response => rw [normal_of_ne (by rw [about]; exact nofun)]
  | error => rw [normal_of_ne (by rw [about]; exact nofun)]

/-! ## The dictionary of an unfamiliar kind -/

/-- Whether an entry is written again: a version that is no byte string counts as none. -/
def counts (entry : Entry) : Bool :=
  entry.1 ≠ Key.version.bytes || entry.2.asBytes?.isSome

/-- The first body says the same as the second: of a dictionary, the entries that count are there in
any order, and everything else is equal. -/
def Restates : Body → Body → Prop
  | .other kind rearranged, .other again payload =>
    kind = again ∧ rearranged.entries.Perm (payload.entries.filter counts)
  | body, other => body = other

namespace IsFrom

theorem mem_envelope (isFrom : m.IsFrom d) {key : Bytes} {value : Value} :
    (key, value) ∈ Dictionary.present m.envelope ↔
      key ∈ [Key.transaction.bytes, Key.version.bytes, Key.kind.bytes] ∧
        ∃ content, d.getBytes? key = some content ∧ value = .bytes content := by
  rw [Dictionary.mem_present, envelope]
  constructor
  · intro member
    rcases List.mem_cons.mp member with same | member
    · rcases Prod.mk.inj same with ⟨rfl, written⟩
      exact ⟨by simp, _, isFrom.transaction, Option.some.inj written⟩
    rcases List.mem_cons.mp member with same | member
    · rcases Prod.mk.inj same with ⟨rfl, written⟩
      rcases Option.map_eq_some_iff.mp written.symm with ⟨version, has, same⟩
      exact ⟨by simp, version, isFrom.version.trans has, same.symm⟩
    rcases Prod.mk.inj (List.mem_singleton.mp member) with ⟨rfl, written⟩
    exact ⟨by simp, _, isFrom.kind, Option.some.inj written⟩
  · rintro ⟨listed, content, found, rfl⟩
    rcases List.mem_cons.mp listed with rfl | listed
    · rw [← Option.some.inj (isFrom.transaction.symm.trans found)]
      exact List.mem_cons_self
    rcases List.mem_cons.mp listed with rfl | listed
    · rw [← isFrom.version, found]
      exact List.mem_cons_of_mem _ List.mem_cons_self
    rcases List.mem_singleton.mp listed with rfl
    rw [← Option.some.inj (isFrom.kind.symm.trans found)]
    exact List.mem_cons_of_mem _ (List.mem_cons_of_mem _ List.mem_cons_self)

/-- Of the entries under the three keys, those that count are byte strings. -/
theorem counts_iff (isFrom : m.IsFrom d) (distinct : d.keys.Nodup) {key : Bytes} {value : Value}
    (listed : key ∈ [Key.transaction.bytes, Key.version.bytes, Key.kind.bytes])
    (member : (key, value) ∈ d.entries) :
    counts (key, value) = true ↔ ∃ content, value = .bytes content := by
  have hFound := Dictionary.get?_of_mem distinct member
  have hBytes : ∀ {content : Bytes}, d.getBytes? key = some content → value = .bytes content :=
    fun found => Option.some.inj (hFound.symm.trans (Dictionary.get?_of_getBytes? found))
  constructor
  · intro counted
    rcases List.mem_cons.mp listed with rfl | listed
    · exact ⟨_, hBytes isFrom.transaction⟩
    rcases List.mem_cons.mp listed with rfl | listed
    · rw [counts, decide_eq_false (not_not_intro rfl), Bool.false_or] at counted
      rcases Option.isSome_iff_exists.mp counted with ⟨content, seen⟩
      refine ⟨content, hBytes ?_⟩
      rw [Dictionary.getBytes?, hFound]
      exact seen
    rcases List.mem_singleton.mp listed with rfl
    exact ⟨_, hBytes isFrom.kind⟩
  · rintro ⟨content, rfl⟩
    rw [counts, Value.asBytes?, Option.isSome_some, Bool.or_true]

/-- The entries that count are written, each once. -/
theorem perm_toDictionary (isFrom : m.IsFrom d) (distinct : d.keys.Nodup)
    (about : m.body = .other kind d) :
    m.toDictionary.entries.Perm (d.entries.filter counts) := by
  have hWritten : m.toDictionary.entries.Nodup := (Dictionary.nodup_ofEntries _).of_map
  have hThere : d.entries.Nodup := distinct.of_map
  refine (List.perm_ext_iff_of_nodup hWritten (hThere.filter _)).mpr ?_
  rintro ⟨key, value⟩
  rw [entries_toDictionary about distinct, List.mem_append, mem_inner, List.mem_filter,
    isFrom.mem_envelope]
  by_cases listed : key ∈ [Key.transaction.bytes, Key.version.bytes, Key.kind.bytes]
  · constructor
    · rintro (⟨-, outside⟩ | ⟨-, content, found, rfl⟩)
      · exact absurd listed outside
      · have hMember := Dictionary.mem_of_get? (Dictionary.get?_of_getBytes? found)
        exact ⟨hMember, (isFrom.counts_iff distinct listed hMember).mpr ⟨content, rfl⟩⟩
    · rintro ⟨member, counted⟩
      rcases (isFrom.counts_iff distinct listed member).mp counted with ⟨content, rfl⟩
      have hFound := Dictionary.get?_of_mem distinct member
      exact .inr ⟨listed, content, Dictionary.getBytes?_of_get? hFound, rfl⟩
  · have hCounts : counts (key, value) = true := by
      have hKey : key ≠ Key.version.bytes := by
        rintro rfl
        exact listed (by simp)
      rw [counts, decide_eq_true hKey, Bool.true_or]
    constructor
    · rintro (⟨member, -⟩ | ⟨among, -⟩)
      · exact ⟨member, hCounts⟩
      · exact absurd among listed
    · rintro ⟨member, -⟩
      exact .inl ⟨member, listed⟩

theorem restates_normal (isFrom : m.IsFrom d) (sound : Sound 0 d.toValue) :
    Restates m.normal.body m.body := by
  rcases readBody_cases isFrom.body with ⟨-, q, about, -⟩ | ⟨-, reply, r, about, -⟩ |
    ⟨-, e, about, -⟩ | ⟨-, about⟩
  · rw [normal_of_ne (by rw [about]; exact nofun), about]
    rfl
  · rw [normal_of_ne (by rw [about]; exact nofun), about]
    rfl
  · rw [normal_of_ne (by rw [about]; exact nofun), about]
    rfl
  · have hPerm := isFrom.perm_toDictionary (Bencode.sound_dict_iff.mp sound).2.1 about
    rw [normal, about]
    exact ⟨rfl, hPerm⟩

end IsFrom

theorem transaction_normal (m : Message) : m.normal.transaction = m.transaction := by
  rw [normal]
  split <;> rfl

theorem version_normal (m : Message) : m.normal.version = m.version := by
  rw [normal]
  split <;> rfl

/-- A message that was read from a datagram is read back when it is written again, up to the order of
the entries and a version without effect if it is of an unfamiliar kind; and what is written for
it is the same from then on. -/
theorem decode_encode_of_decode (datagram : Bytes) (m : Message)
    (short : datagram.length ≤ LocalNode.maxDatagramLength) (read : decode datagram = .ok m) :
    ∃ again, decode m.encode = .ok again ∧ again.encode = m.encode ∧
      again.transaction = m.transaction ∧ again.version = m.version ∧
      Restates again.body m.body := by
  rcases isFrom_of_decode read with ⟨d, taken, isFrom⟩
  have hSound := Bencode.sound_of_decodeDictionary taken
  have hShort := Nat.le_trans (Bencode.length_encode_le_of_decodeDictionary taken) short
  have hRegular := isFrom.regular_normal hSound hShort
  have hEncode : m.normal.encode = m.encode := by
    rw [encode, encode, toDictionary_normal hRegular]
  have hRead : decode m.normal.encode = .ok m.normal :=
    (decode_encode_of_sound hRegular.sound).trans hRegular.ofDictionary_toDictionary
  rw [hEncode] at hRead
  exact ⟨m.normal, hRead, hEncode, m.transaction_normal, m.version_normal,
    isFrom.restates_normal hSound⟩

/-- A dictionary of the kind `x` in disorder, with a number for a version. -/
def disordered : Bytes :=
  Bytes.ofString "d1:vi1e1:y1:x1:t1:a1:zlee"

/-- The message that it holds. -/
def disorderly : Message :=
  ⟨[0x61], none, .other [0x78] ⟨[([0x76], .integer 1), ([0x79], .bytes [0x78]),
    ([0x74], .bytes [0x61]), ([0x7a], .list [])]⟩⟩

theorem decode_encode_disorderly :
    disordered.length ≤ LocalNode.maxDatagramLength ∧ decode disordered = .ok disorderly ∧
      ∃ again, decode disorderly.encode = .ok again ∧ again.encode = disorderly.encode ∧
        again.transaction = [0x61] ∧ again.version = none ∧
        Restates again.body disorderly.body := by
  have hShort : disordered.length ≤ LocalNode.maxDatagramLength := by
    decide +kernel
  have hRead : decode disordered = .ok disorderly := by
    decide +kernel
  exact ⟨hShort, hRead, decode_encode_of_decode disordered disorderly hShort hRead⟩

end Message
end Kademlia
