import Kademlia.Message.Reader
import Kademlia.Proofs.Bencode.Dictionary
import Kademlia.Proofs.Compact
import Mathlib.Data.List.Nodup

namespace Kademlia

/-!
# Reading messages back

What one node writes, another reads: a message is read back from its datagram, whatever its kind,
its transaction and its version.  `Message.Regular` says what the message has to be like.  Some of it
the reader enforces, such as the limits of bencode and a port that is not zero.  Some of it the
writer does: contacts under a key of the other family are not written, and a message of an unfamiliar
kind is its dictionary, from which the transaction, the version and the kind are taken again.

The parts are taken one after another.  The entries of a dictionary are looked up by their keys
(`Key.nodup_bytes`), and every reader finds under its keys what the writer has put there.
-/

open Bencode (Dictionary Value Entry Sound SoundField)

/-! ## Keys and methods -/

namespace Key

def all : List Key :=
  [transaction, kind, version, method, arguments, reply, error, id, target, infoHash, impliedPort,
    port, token, nodes, nodes6, values, want]

theorem mem_all (key : Key) : key ∈ all := by
  cases key <;> decide

theorem nodup_all : (all.map bytes).Nodup := by
  decide +kernel

theorem bytes_injective : Function.Injective bytes := fun a b same =>
  eq_of_nodup_map nodup_all a.mem_all b.mem_all same

theorem nodup_bytes (keys : List Key) (distinct : keys.Nodup) : (keys.map bytes).Nodup :=
  distinct.map bytes_injective

theorem length_bytes_le (key : Key) : key.bytes.length ≤ 2147483647 := by
  have hShort : key.bytes.length ≤ 12 := by
    cases key <;> decide +kernel
  exact Nat.le_trans hShort (by decide)

end Key

theorem Method.bytes_injective : Function.Injective Method.bytes := by
  intro a b
  cases a <;> cases b <;> decide +kernel

theorem Method.length_bytes_le (method : Method) : method.bytes.length ≤ 2147483647 := by
  have hShort : method.bytes.length ≤ 13 := by
    cases method <;> decide +kernel
  exact Nat.le_trans hShort (by decide)

/-! ## Queries -/

namespace Query

/-- The announced port is not zero, a method that is none of the four has a name of its own, and
what is of any length is not too long. -/
def Regular : Query → Prop
  | announcePeer _ _ port token => port ≠ some 0 ∧ token.length ≤ 2147483647
  | other method _ => (∀ known : Method, method ≠ known.bytes) ∧ method.length ≤ 2147483647
  | _ => True

section Arguments

variable {d : Dictionary} {key : Key}

theorem readId_of_get? {id : NodeId} (found : d.get? key.bytes = some id.toValue) :
    readId key d = .ok id := by
  rw [readId, Dictionary.getBytes?_of_get? found, Option.bind_eq_bind, Option.bind_some,
    NodeId.ofBytes?_toBytes]

theorem readId_of_absent (absent : d.get? key.bytes = none) : readId key d = .error key := by
  rw [readId, Dictionary.getBytes?, absent]
  rfl

theorem readToken_of_get? {token : Bytes} (found : d.get? Key.token.bytes = some (.bytes token)) :
    readToken d = .ok token := by
  rw [readToken, Dictionary.getBytes?_of_get? found]

/-- An implied port is written as such, and any other one without the entry for it. -/
theorem readPort_of_get? {port : Option UInt16} (regular : port ≠ some 0)
    (implied : d.get? Key.impliedPort.bytes = if port.isNone then some (.integer 1) else none)
    (announced : d.get? Key.port.bytes = port.map fun p => .integer (Int64.ofNat p.toNat)) :
    readPort d = .ok port := by
  cases port with
  | none =>
    have hImplied : d.getInteger? Key.impliedPort.bytes = some 1 :=
      Dictionary.getInteger?_of_get? implied
    rw [readPort, hImplied]
    exact if_pos (by decide)
  | some port =>
    have hImplied : d.getInteger? Key.impliedPort.bytes = none :=
      Dictionary.getInteger?_of_get? implied
    have hAnnounced : d.getInteger? Key.port.bytes = some (Int64.ofNat port.toNat) :=
      Dictionary.getInteger?_of_get? announced
    have hBound := port.toNat_lt
    have hWord : (Int64.ofNat port.toNat).toInt = port.toNat :=
      Int64.toInt_ofNat_of_lt (Nat.lt_trans hBound (by decide))
    have hPositive : 0 < port.toNat := by
      apply Nat.pos_of_ne_zero
      intro zero
      exact regular (congrArg some (UInt16.toNat_inj.mp zero))
    rw [readPort, hImplied, hAnnounced, if_neg (by decide), Option.map_some]
    dsimp only
    rw [hWord, if_pos ⟨Int.natCast_pos.mpr hPositive, Int.ofNat_lt.mpr hBound⟩, Int.toNat_natCast,
      UInt16.ofNat_toNat]

theorem ofArguments_want {want : Option Want}
    (found : d.get? Key.want.bytes = want.map Want.toValue) : Want.ofArguments d = want := by
  cases want with
  | none =>
    rw [Want.ofArguments, Dictionary.getList?, found]
    rfl
  | some want =>
    cases want with
    | v4 =>
      rw [Want.ofArguments, Dictionary.getList?_of_get? found]
      decide +kernel
    | v6 =>
      rw [Want.ofArguments, Dictionary.getList?_of_get? found]
      decide +kernel
    | both =>
      rw [Want.ofArguments, Dictionary.getList?_of_get? found]
      decide +kernel

end Arguments

theorem ofArguments_ping (sender : NodeId) :
    ofArguments Method.ping.bytes (ping sender).arguments = .ok (ping sender) := by
  have hKeys := Key.nodup_bytes [.id] (by decide)
  have hId : readId .id (ping sender).arguments = .ok sender :=
    readId_of_get? (Dictionary.get?_ofEntries hKeys (by simp))
  rw [ofArguments, if_pos rfl, hId]
  rfl

theorem ofArguments_findNode (sender target : NodeId) (want : Option Want) :
    ofArguments Method.findNode.bytes (findNode sender target want).arguments =
      .ok (findNode sender target want) := by
  have hKeys := Key.nodup_bytes [.id, .target, .want] (by decide)
  have hId : readId .id (findNode sender target want).arguments = .ok sender :=
    readId_of_get? (Dictionary.get?_ofEntries hKeys (by simp))
  have hTarget : readId .target (findNode sender target want).arguments = .ok target :=
    readId_of_get? (Dictionary.get?_ofEntries hKeys (by simp))
  have hWant : Want.ofArguments (findNode sender target want).arguments = want :=
    ofArguments_want (Dictionary.get?_ofEntries hKeys (by simp))
  have hPing := Method.bytes_injective.ne (show Method.findNode ≠ .ping by decide)
  rw [ofArguments, if_neg hPing, if_pos rfl, hId, hTarget, hWant]
  rfl

theorem ofArguments_getPeers (sender : NodeId) (infoHash : InfoHash) (want : Option Want) :
    ofArguments Method.getPeers.bytes (getPeers sender infoHash want).arguments =
      .ok (getPeers sender infoHash want) := by
  have hKeys := Key.nodup_bytes [.id, .infoHash, .want] (by decide)
  have hId : readId .id (getPeers sender infoHash want).arguments = .ok sender :=
    readId_of_get? (Dictionary.get?_ofEntries hKeys (by simp))
  have hInfoHash : readId .infoHash (getPeers sender infoHash want).arguments = .ok infoHash :=
    readId_of_get? (Dictionary.get?_ofEntries hKeys (by simp))
  have hWant : Want.ofArguments (getPeers sender infoHash want).arguments = want :=
    ofArguments_want (Dictionary.get?_ofEntries hKeys (by simp))
  have hPing := Method.bytes_injective.ne (show Method.getPeers ≠ .ping by decide)
  have hFindNode := Method.bytes_injective.ne (show Method.getPeers ≠ .findNode by decide)
  rw [ofArguments, if_neg hPing, if_neg hFindNode, if_pos rfl, hId, hInfoHash, hWant]
  rfl

theorem ofArguments_announcePeer (sender : NodeId) (infoHash : InfoHash) {port : Option UInt16}
    (token : Bytes) (regular : port ≠ some 0) :
    ofArguments Method.announcePeer.bytes (announcePeer sender infoHash port token).arguments =
      .ok (announcePeer sender infoHash port token) := by
  have hKeys := Key.nodup_bytes [.id, .impliedPort, .infoHash, .port, .token] (by decide)
  have hPort : readPort (announcePeer sender infoHash port token).arguments = .ok port :=
    readPort_of_get? regular (Dictionary.get?_ofEntries hKeys (by simp))
      (Dictionary.get?_ofEntries hKeys (by simp))
  have hId : readId .id (announcePeer sender infoHash port token).arguments = .ok sender :=
    readId_of_get? (Dictionary.get?_ofEntries hKeys (by simp))
  have hInfoHash : readId .infoHash (announcePeer sender infoHash port token).arguments =
      .ok infoHash :=
    readId_of_get? (Dictionary.get?_ofEntries hKeys (by simp))
  have hToken : readToken (announcePeer sender infoHash port token).arguments = .ok token :=
    readToken_of_get? (Dictionary.get?_ofEntries hKeys (by simp))
  have hPing := Method.bytes_injective.ne (show Method.announcePeer ≠ .ping by decide)
  have hFindNode := Method.bytes_injective.ne (show Method.announcePeer ≠ .findNode by decide)
  have hGetPeers := Method.bytes_injective.ne (show Method.announcePeer ≠ .getPeers by decide)
  rw [ofArguments, if_neg hPing, if_neg hFindNode, if_neg hGetPeers, if_pos rfl, hPort, hId,
    hInfoHash, hToken]
  rfl

/-- Without a target, a query of an unfamiliar method is not taken for one for nodes. -/
theorem ofArguments_other {method : Bytes} (sender : Option NodeId)
    (unfamiliar : ∀ known : Method, method ≠ known.bytes) :
    ofArguments method (other method sender).arguments = .ok (other method sender) := by
  have hKeys := Key.nodup_bytes [.id] (by decide)
  have hSender : (readId .id (other method sender).arguments).toOption = sender := by
    have hFound : (other method sender).arguments.get? Key.id.bytes =
        sender.map NodeId.toValue := Dictionary.get?_ofEntries hKeys (by simp)
    cases sender with
    | none => rw [readId_of_absent hFound]; rfl
    | some sender => rw [readId_of_get? hFound]; rfl
  have hAbsent : ∀ key : Key, key ≠ .id →
      readId key (other method sender).arguments = .error key := by
    intro key different
    apply readId_of_absent
    apply Dictionary.get?_ofEntries_of_not_mem
    intro member
    exact different (Key.bytes_injective (List.mem_singleton.mp member))
  rw [ofArguments, if_neg (unfamiliar .ping), if_neg (unfamiliar .findNode),
    if_neg (unfamiliar .getPeers), if_neg (unfamiliar .announcePeer), readOther, hSender,
    hAbsent .target (by decide), hAbsent .infoHash (by decide)]
  cases sender <;> rfl

/-- A query is read back from its method and its arguments. -/
theorem ofArguments_arguments {q : Query} (regular : q.Regular) :
    ofArguments q.methodBytes q.arguments = .ok q := by
  cases q with
  | ping sender => exact ofArguments_ping sender
  | findNode sender target want => exact ofArguments_findNode sender target want
  | getPeers sender infoHash want => exact ofArguments_getPeers sender infoHash want
  | announcePeer sender infoHash port token =>
    exact ofArguments_announcePeer sender infoHash token regular.1
  | other method sender => exact ofArguments_other sender regular.1

end Query

/-! ## Fields of a message -/

namespace Message

section Fields

variable {α : Type} {d : Dictionary} {key : Key} {view : Value → Option α}

theorem readField_of_get? {value : Value} {a : α} (found : d.get? key.bytes = some value)
    (seen : view value = some a) : readField d key view = .ok a := by
  rw [readField, found]
  dsimp only
  rw [seen]

theorem readOptional_of_get? {content : Option α} {write : α → Value}
    (found : d.get? key.bytes = content.map write)
    (seen : ∀ a ∈ content, view (write a) = some a) : readOptional d key view = .ok content := by
  rw [readOptional, found]
  cases content with
  | none => rfl
  | some a =>
    rw [Option.map_some]
    dsimp only
    rw [seen a rfl]

/-- A list that is left out when it is empty is read as none or whole. -/
theorem readOptional_of_isEmpty {items : List α} {value : Value}
    {view : Value → Option (List α)}
    (found : d.get? key.bytes = if items.isEmpty then none else some value)
    (seen : view value = some items) :
    ∃ content, readOptional d key view = .ok content ∧ content.getD [] = items := by
  rw [readOptional, found]
  cases items with
  | nil => exact ⟨none, rfl, rfl⟩
  | cons first rest =>
    rw [if_neg (by simp)]
    dsimp only
    rw [seen]
    exact ⟨_, rfl, rfl⟩

end Fields

end Message

/-! ## Responses and refusals -/

/-- The contacts under a key are of its family, and what is of any length is not too long. -/
structure Response.Regular (r : Response) : Prop where
  nodes : ∀ contact ∈ r.nodes, contact.family = .v4
  nodes6 : ∀ contact ∈ r.nodes6, contact.family = .v6
  nodes_short : r.nodes.length * 26 ≤ 2147483647
  nodes6_short : r.nodes6.length * 38 ≤ 2147483647
  token : ∀ token ∈ r.token, token.length ≤ 2147483647

theorem contacts?_encodeContacts {family : Family} {contacts : List Contact}
    (all : ∀ contact ∈ contacts, contact.family = family) :
    Message.contacts? family (.bytes (Compact.encodeContacts family contacts)) =
      some contacts := by
  have hFilter : contacts.filter (·.family = family) = contacts :=
    List.filter_eq_self.mpr fun contact member => decide_eq_true (all contact member)
  change (Compact.decodeContacts family (Compact.encodeContacts family contacts)).toOption = _
  rw [Compact.decodeContacts_encodeContacts, hFilter]
  rfl

theorem peers?_encodePeers (peers : List Address) :
    Message.peers? (Compact.encodePeers peers) = some peers := by
  change (Compact.decodePeers (peers.map fun peer => .bytes (Compact.encodePeer peer))).toOption = _
  rw [Compact.decodePeers_map_encodePeer]
  rfl

/-- A response is read back from its dictionary. -/
theorem Response.readResponse_toDictionary {r : Response} (regular : r.Regular) :
    Message.readResponse r.toDictionary = .ok r := by
  have hKeys := Key.nodup_bytes [.id, .nodes, .nodes6, .token, .values] (by decide)
  have hId : r.toDictionary.get? Key.id.bytes = some r.sender.toValue :=
    Dictionary.get?_ofEntries hKeys (by simp)
  have hNodes : r.toDictionary.get? Key.nodes.bytes = if r.nodes.isEmpty then none else
      some (.bytes (Compact.encodeContacts .v4 r.nodes)) :=
    Dictionary.get?_ofEntries hKeys (by simp)
  have hNodes6 : r.toDictionary.get? Key.nodes6.bytes = if r.nodes6.isEmpty then none else
      some (.bytes (Compact.encodeContacts .v6 r.nodes6)) :=
    Dictionary.get?_ofEntries hKeys (by simp)
  have hValues : r.toDictionary.get? Key.values.bytes = if r.values.isEmpty then none else
      some (Compact.encodePeers r.values) :=
    Dictionary.get?_ofEntries hKeys (by simp)
  have hToken : r.toDictionary.get? Key.token.bytes = r.token.map Value.bytes :=
    Dictionary.get?_ofEntries hKeys (by simp)
  rcases Message.readOptional_of_isEmpty hNodes (contacts?_encodeContacts regular.nodes) with
    ⟨nodes, readNodes, sameNodes⟩
  rcases Message.readOptional_of_isEmpty hNodes6 (contacts?_encodeContacts regular.nodes6) with
    ⟨nodes6, readNodes6, sameNodes6⟩
  rcases Message.readOptional_of_isEmpty hValues (peers?_encodePeers r.values) with
    ⟨values, readValues, sameValues⟩
  have hSender : r.sender.toValue.asBytes? >>= NodeId.ofBytes? = some r.sender :=
    NodeId.ofBytes?_toBytes r.sender
  rw [Message.readResponse, Message.readField_of_get? hId hSender, readNodes, readNodes6,
    readValues, Message.readOptional_of_get? hToken fun _ _ => rfl]
  exact congrArg Except.ok (by rw [sameNodes, sameNodes6, sameValues])

@[simp]
theorem ErrorReply.errorReply?_toValue (e : ErrorReply) :
    Message.errorReply? e.toValue = some e := by
  rw [toValue, Value.ofString, Message.errorReply?, Utf8.lossy_ofString]

/-! ## Messages -/

namespace Message

variable {m : Message}

/-- The entries behind those that tell what a message is about. -/
def envelope (m : Message) : List (Bytes × Option Value) :=
  [(Key.transaction.bytes, some (.bytes m.transaction)),
    (Key.version.bytes, m.version.map Value.bytes),
    (Key.kind.bytes, some (.bytes m.body.kind))]

/-- A dictionary that a message of an unfamiliar kind can hold: it ends with the transaction, the
version if there is one, and the kind, and has no other entries under their keys. -/
structure Holds (m : Message) (payload : Dictionary) : Prop where
  unfamiliar : m.body.kind ≠ Key.method.bytes ∧ m.body.kind ≠ Key.reply.bytes ∧
    m.body.kind ≠ Key.error.bytes
  distinct : payload.toValue.DistinctKeys
  within : payload.toValue.WithinLimits
  closes : ∃ front : List Entry, payload.entries = front ++ Dictionary.present m.envelope ∧
    ∀ entry ∈ front, entry.1 ∉ [Key.transaction.bytes, Key.version.bytes, Key.kind.bytes]

/-- A message that can be read back. -/
structure Regular (m : Message) : Prop where
  transaction : m.transaction.length ≤ 2147483647
  version : ∀ version ∈ m.version, version.length ≤ 2147483647
  body : match m.body with
    | .query q => q.Regular
    | .response r => r.Regular
    | .error e => (Bytes.ofString e.text).length ≤ 2147483647
    | .other _ payload => m.Holds payload

theorem nodup_keys (distinct : ∀ kind payload, m.body = .other kind payload → payload.keys.Nodup) :
    ((m.body.entries ++ m.envelope).map (·.1)).Nodup := by
  have hEnvelope := Key.nodup_bytes [.transaction, .version, .kind] (by decide)
  cases about : m.body with
  | query q =>
    exact Key.nodup_bytes [.arguments, .method, .transaction, .version, .kind] (by decide)
  | response r => exact Key.nodup_bytes [.reply, .transaction, .version, .kind] (by decide)
  | error e => exact Key.nodup_bytes [.error, .transaction, .version, .kind] (by decide)
  | other kind payload =>
    rw [Body.entries, List.map_append, List.map_map]
    refine List.nodup_append.mpr ⟨?_, hEnvelope, ?_⟩
    · exact (distinct kind payload about).sublist (List.filter_sublist.map _)
    · intro key front other back same
      rcases List.mem_map.mp front with ⟨entry, member, rfl⟩
      have hOutside := (List.mem_filter.mp member).2
      rw [Bool.not_eq_true', List.contains_eq_mem, decide_eq_false_iff_not] at hOutside
      subst same
      exact hOutside back

/-- What a message is written with is found under its keys. -/
theorem get?_toDictionary {key : Bytes} {content : Option Value}
    (distinct : ∀ kind payload, m.body = .other kind payload → payload.keys.Nodup)
    (member : (key, content) ∈ m.body.entries ++ m.envelope) :
    m.toDictionary.get? key = content :=
  Dictionary.get?_ofEntries (nodup_keys distinct) member

theorem Regular.distinct (regular : m.Regular) (kind : Bytes) (payload : Dictionary)
    (about : m.body = .other kind payload) : payload.keys.Nodup := by
  have hBody := regular.body
  rw [about] at hBody
  exact hBody.distinct _ payload.toValue.mem_nodes

/-- The entries that a message of an unfamiliar kind writes in front of the others are those that
its dictionary has there, so that the dictionary is written as it is. -/
theorem Regular.toDictionary_other {kind : Bytes} {payload : Dictionary} (regular : m.Regular)
    (about : m.body = .other kind payload) (holds : m.Holds payload) :
    m.toDictionary = payload := by
  rcases holds.closes with ⟨front, closes, outside⟩
  have hFront : front.filter (fun entry =>
      !([Key.transaction.bytes, Key.version.bytes, Key.kind.bytes].contains entry.1)) = front := by
    apply List.filter_eq_self.mpr
    intro entry member
    rw [Bool.not_eq_true', List.contains_eq_mem]
    exact decide_eq_false (outside entry member)
  have hEnvelope : (Dictionary.present m.envelope).filter (fun entry =>
      !([Key.transaction.bytes, Key.version.bytes, Key.kind.bytes].contains entry.1)) = [] := by
    apply List.filter_eq_nil_iff.mpr
    intro entry member
    have hKey := (Dictionary.keys_present_sublist m.envelope).subset (List.mem_map_of_mem member)
    rw [Bool.not_eq_true', List.contains_eq_mem]
    exact fun absent => of_decide_eq_false absent hKey
  have hEntries : m.body.entries = front.map fun entry => (entry.1, some entry.2) := by
    rw [about, Body.entries, closes, List.filter_append, hFront, hEnvelope, List.append_nil]
  have hWritten : m.toDictionary.entries = payload.entries := by
    rw [closes, ← Dictionary.present_map_some front, ← hEntries, ← Dictionary.present_append]
    exact Dictionary.entries_ofEntries (nodup_keys regular.distinct)
  exact congrArg Dictionary.mk hWritten

/-! ## Limits -/

theorem soundField_id (key : Key) (id : NodeId) :
    SoundField 2 (key.bytes, some id.toValue) := by
  refine Bencode.soundField_some key.length_bytes_le (Bencode.sound_bytes (by decide) ?_)
  rw [NodeId.length_toBytes]
  decide

theorem soundField_want (want : Option Want) :
    SoundField 2 (Key.want.bytes, want.map Want.toValue) := by
  refine Bencode.soundField_map Key.want.length_bytes_le fun families _ => ?_
  have hNames : ∀ name ∈ ["n4", "n6"], Sound 3 (.ofString name) := by
    intro name member
    refine Bencode.sound_bytes (by decide) ?_
    revert name
    decide +kernel
  cases families with
  | v4 => exact Bencode.sound_list (by decide) (by simpa using hNames "n4" (by simp))
  | v6 => exact Bencode.sound_list (by decide) (by simpa using hNames "n6" (by simp))
  | both => exact Bencode.sound_list (by decide) (by simpa using hNames)

theorem sound_arguments {q : Query} (regular : q.Regular) : Sound 1 q.arguments.toValue := by
  cases q with
  | ping sender =>
    refine Bencode.sound_ofEntries (by decide) ?_
    exact List.forall_mem_singleton.mpr (soundField_id .id sender)
  | findNode sender target want =>
    refine Bencode.sound_ofEntries (by decide) ?_
    simp only [List.forall_mem_cons]
    exact ⟨soundField_id .id sender, soundField_id .target target, soundField_want want, nofun⟩
  | getPeers sender infoHash want =>
    refine Bencode.sound_ofEntries (by decide) ?_
    simp only [List.forall_mem_cons]
    exact ⟨soundField_id .id sender, soundField_id .infoHash infoHash, soundField_want want, nofun⟩
  | announcePeer sender infoHash port token =>
    have hNumber : ∀ number, Sound 2 (.integer number) := Bencode.sound_integer (by decide)
    have hToken : Sound 2 (.bytes token) := Bencode.sound_bytes (by decide) regular.2
    refine Bencode.sound_ofEntries (by decide) ?_
    simp only [List.forall_mem_cons]
    refine ⟨soundField_id .id sender, ?_, soundField_id .infoHash infoHash, ?_, ?_, nofun⟩
    · cases port with
      | none => exact Bencode.soundField_some (Key.length_bytes_le .impliedPort) (hNumber 1)
      | some port => exact Bencode.soundField_none (Key.length_bytes_le .impliedPort)
    · exact Bencode.soundField_map (Key.length_bytes_le .port) fun _ _ => hNumber _
    · exact Bencode.soundField_some (Key.length_bytes_le .token) hToken
  | other method sender =>
    refine Bencode.sound_ofEntries (by decide) ?_
    refine List.forall_mem_singleton.mpr ?_
    exact Bencode.soundField_map (Key.length_bytes_le .id) fun id _ => (soundField_id .id id).2 _ rfl

theorem sound_response {r : Response} (regular : r.Regular) : Sound 1 r.toDictionary.toValue := by
  have hContacts : ∀ {family : Family} {contacts : List Contact} {key : Key},
      contacts.length * Compact.contactLength family ≤ 2147483647 →
        SoundField 2 (key.bytes, if contacts.isEmpty then none else
          some (.bytes (Compact.encodeContacts family contacts))) := by
    intro family contacts key short
    refine Bencode.soundField_ite key.length_bytes_le (Bencode.sound_bytes (by decide) ?_)
    rw [Compact.length_encodeContacts]
    exact Nat.le_trans (Nat.mul_le_mul_right _ (List.length_filter_le _ _)) short
  have hPeers : Sound 2 (Compact.encodePeers r.values) := by
    refine Bencode.sound_list (by decide) fun item member => ?_
    rcases List.mem_map.mp member with ⟨peer, -, rfl⟩
    refine Bencode.sound_bytes (by decide) ?_
    rw [Compact.length_encodePeer]
    cases peer.family <;> decide
  refine Bencode.sound_ofEntries (by decide) ?_
  simp only [List.forall_mem_cons]
  refine ⟨soundField_id .id r.sender, hContacts regular.nodes_short,
    hContacts regular.nodes6_short, ?_, ?_, nofun⟩
  · exact Bencode.soundField_map (Key.length_bytes_le .token) fun token has =>
      Bencode.sound_bytes (by decide) (regular.token token has)
  · exact Bencode.soundField_ite (Key.length_bytes_le .values) hPeers

theorem sound_errorReply {e : ErrorReply} (short : (Bytes.ofString e.text).length ≤ 2147483647) :
    Sound 1 e.toValue := by
  refine Bencode.sound_list (by decide) ?_
  simp only [List.forall_mem_cons]
  exact ⟨Bencode.sound_integer (by decide) e.code, Bencode.sound_bytes (by decide) short, nofun⟩

/-- What comes behind the body is within the limits if the transaction, the version and the kind
are. -/
theorem sound_of_entries (transaction : m.transaction.length ≤ 2147483647)
    (version : ∀ version ∈ m.version, version.length ≤ 2147483647)
    (kind : m.body.kind.length ≤ 2147483647)
    (entries : ∀ item ∈ m.body.entries, SoundField 1 item) : Sound 0 m.toDictionary.toValue := by
  have hEnvelope : ∀ item ∈ m.envelope, SoundField 1 item := by
    unfold envelope
    simp only [List.forall_mem_cons]
    refine ⟨?_, ?_, ?_, nofun⟩
    · exact Bencode.soundField_some (Key.length_bytes_le .transaction)
        (Bencode.sound_bytes (by decide) transaction)
    · exact Bencode.soundField_map (Key.length_bytes_le .version) fun content has =>
        Bencode.sound_bytes (by decide) (version content has)
    · exact Bencode.soundField_some (Key.length_bytes_le .kind)
        (Bencode.sound_bytes (by decide) kind)
  refine Bencode.sound_ofEntries (by decide) fun item member => ?_
  rcases List.mem_append.mp member with front | back
  · exact entries item front
  · exact hEnvelope item back

/-- What is written for a message stays within the limits of the reader. -/
theorem Regular.sound (regular : m.Regular) : Sound 0 m.toDictionary.toValue := by
  have hBody := regular.body
  have hSound := sound_of_entries regular.transaction regular.version
  cases about : m.body with
  | query q =>
    rw [about] at hBody hSound
    have hMethod : q.methodBytes.length ≤ 2147483647 := by
      cases q with
      | ping => exact Method.length_bytes_le .ping
      | findNode => exact Method.length_bytes_le .findNode
      | getPeers => exact Method.length_bytes_le .getPeers
      | announcePeer => exact Method.length_bytes_le .announcePeer
      | other method sender => exact hBody.2
    refine hSound (Key.length_bytes_le .method) (List.forall_mem_cons.mpr ⟨?_, ?_⟩)
    · exact Bencode.soundField_some (Key.length_bytes_le .arguments) (sound_arguments hBody)
    · exact List.forall_mem_singleton.mpr (Bencode.soundField_some (Key.length_bytes_le .method)
        (Bencode.sound_bytes (by decide) hMethod))
  | response r =>
    rw [about] at hBody hSound
    refine hSound (Key.length_bytes_le .reply) (List.forall_mem_singleton.mpr ?_)
    exact Bencode.soundField_some (Key.length_bytes_le .reply) (sound_response hBody)
  | error e =>
    rw [about] at hBody hSound
    refine hSound (Key.length_bytes_le .error) (List.forall_mem_singleton.mpr ?_)
    exact Bencode.soundField_some (Key.length_bytes_le .error) (sound_errorReply hBody)
  | other kind payload =>
    rw [about] at hBody
    rw [regular.toDictionary_other about hBody]
    exact fun node member => ⟨hBody.within node member, hBody.distinct node member⟩

/-! ## The round trip -/

theorem readBody_query {d : Dictionary} {transaction method : Bytes} {arguments : Dictionary}
    (hMethod : readField d .method Value.asBytes? = .ok method)
    (hArguments : readField d .arguments Value.asDict? = .ok arguments) :
    readBody d transaction Key.method.bytes =
      match Query.ofArguments method arguments with
      | .ok query => .ok (.query query)
      | .error key => .error (.invalidArgument transaction key) := by
  rw [readBody, if_pos rfl, readQuery, hMethod, hArguments]
  change Body.query <$> (match Query.ofArguments method arguments with
    | .ok query => Except.ok query
    | .error key => .error (MessageError.invalidArgument transaction key)) = _
  cases Query.ofArguments method arguments <;> rfl

theorem Regular.readBody_toDictionary (regular : m.Regular) :
    readBody m.toDictionary m.transaction m.body.kind = .ok m.body := by
  have hBody := regular.body
  have hFind : ∀ {key : Bytes} {content : Option Value}, (key, content) ∈ m.body.entries →
      m.toDictionary.get? key = content := fun member =>
    get?_toDictionary regular.distinct (List.mem_append_left m.envelope member)
  cases about : m.body with
  | query q =>
    rw [about] at hBody hFind
    have hArguments : readField m.toDictionary .arguments Value.asDict? = .ok q.arguments :=
      readField_of_get? (hFind List.mem_cons_self) rfl
    have hMethod : readField m.toDictionary .method Value.asBytes? = .ok q.methodBytes :=
      readField_of_get? (hFind (List.mem_cons_of_mem _ List.mem_cons_self)) rfl
    rw [Body.kind, readBody_query hMethod hArguments, Query.ofArguments_arguments hBody]
  | response r =>
    rw [about] at hBody hFind
    have hReply : readField m.toDictionary .reply Value.asDict? = .ok r.toDictionary :=
      readField_of_get? (hFind List.mem_cons_self) rfl
    have hOther := Key.bytes_injective.ne (show Key.reply ≠ .method by decide)
    rw [readBody, Body.kind, if_neg hOther, if_pos rfl, hReply]
    change Body.response <$> readResponse r.toDictionary = _
    rw [Response.readResponse_toDictionary hBody]
    rfl
  | error e =>
    rw [about] at hFind
    have hError : readField m.toDictionary .error errorReply? = .ok e :=
      readField_of_get? (hFind List.mem_cons_self) e.errorReply?_toValue
    have hQuery := Key.bytes_injective.ne (show Key.error ≠ .method by decide)
    have hResponse := Key.bytes_injective.ne (show Key.error ≠ .reply by decide)
    rw [readBody, Body.kind, if_neg hQuery, if_neg hResponse, if_pos rfl, hError]
    rfl
  | other kind payload =>
    rw [about] at hBody
    have hKind := hBody.unfamiliar
    rw [about, Body.kind] at hKind
    rw [regular.toDictionary_other about hBody, readBody, Body.kind, if_neg hKind.1,
      if_neg hKind.2.1, if_neg hKind.2.2]
    rfl

theorem Regular.ofDictionary_toDictionary (regular : m.Regular) :
    ofDictionary m.toDictionary = .ok m := by
  have hFind : ∀ {key : Bytes} {content : Option Value}, (key, content) ∈ m.envelope →
      m.toDictionary.get? key = content := fun member =>
    get?_toDictionary regular.distinct (List.mem_append_right m.body.entries member)
  have hTransaction : m.toDictionary.getBytes? Key.transaction.bytes = some m.transaction :=
    Dictionary.getBytes?_of_get? (hFind (by simp [envelope]))
  have hKindEntry : m.toDictionary.get? Key.kind.bytes = some (.bytes m.body.kind) :=
    hFind (by simp [envelope])
  have hKind : readField m.toDictionary .kind Value.asBytes? = .ok m.body.kind :=
    readField_of_get? hKindEntry rfl
  have hVersionEntry : m.toDictionary.get? Key.version.bytes = m.version.map Value.bytes :=
    hFind (by simp [envelope])
  have hVersion : m.toDictionary.getBytes? Key.version.bytes = m.version := by
    rw [Dictionary.getBytes?, hVersionEntry]
    cases m.version <;> rfl
  rw [ofDictionary, hTransaction]
  change (readField m.toDictionary .kind Value.asBytes? >>= fun kind =>
    readBody m.toDictionary m.transaction kind >>= fun body =>
      Except.ok (Message.mk m.transaction (m.toDictionary.getBytes? Key.version.bytes) body)) = _
  rw [hKind, hVersion]
  change (readBody m.toDictionary m.transaction m.body.kind >>= fun body =>
    Except.ok (Message.mk m.transaction m.version body)) = _
  rw [regular.readBody_toDictionary]
  rfl

/-- What is within the limits is read from its datagram as it is from its dictionary. -/
theorem decode_encode_of_sound (sound : Sound 0 m.toDictionary.toValue) :
    decode m.encode = ofDictionary m.toDictionary := by
  rw [decode, encode, Bencode.decodeDictionary_encode sound]

/-- A message is read back from its datagram. -/
theorem decode_encode_of_regular (m : Message) (regular : m.Regular) : decode m.encode = .ok m := by
  rw [decode, encode, Bencode.decodeDictionary_encode regular.sound]
  exact regular.ofDictionary_toDictionary

/-- A response with a contact of each family, a peer and a token. -/
def listing : Message :=
  ⟨[0x61], some [0x50, 0x4e], .response ⟨.zero, [⟨.zero, ⟨.v4 1, 6881⟩⟩], [⟨.zero, ⟨.v6 2, 0⟩⟩],
    [⟨.v6 3, 80⟩], some [0x74]⟩⟩

/-- A message of the kind `x`, without a version and with an entry of its own. -/
def unfamiliar : Message :=
  ⟨[0x61], none, .other [0x78] ⟨[([0x7a], .list [.integer (-1)]),
    (Key.transaction.bytes, .bytes [0x61]), (Key.kind.bytes, .bytes [0x78])]⟩⟩

theorem decode_encode_listing :
    (listing.Regular ∧ decode listing.encode = .ok listing) ∧
      unfamiliar.Regular ∧ decode unfamiliar.encode = .ok unfamiliar := by
  have hListing : listing.Regular := by
    refine ⟨by decide, by decide, ?_⟩
    exact ⟨by decide, by decide, by decide, by decide, by decide⟩
  have hUnfamiliar : unfamiliar.Regular := by
    refine ⟨by decide, nofun, ?_⟩
    refine ⟨by decide +kernel, ?_, ?_, ?_⟩
    · unfold Value.DistinctKeys
      decide +kernel
    · unfold Value.WithinLimits Bencode.WithinLimits
      decide +kernel
    · exact ⟨[([0x7a], .list [.integer (-1)])], by decide +kernel, by decide +kernel⟩
  exact ⟨⟨hListing, decode_encode_of_regular listing hListing⟩, hUnfamiliar,
    decode_encode_of_regular unfamiliar hUnfamiliar⟩

end Message
end Kademlia
