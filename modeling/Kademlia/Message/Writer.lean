import Kademlia.Bencode.Writer
import Kademlia.Compact
import Kademlia.Message.Basic

namespace Kademlia

/-!
Messages as bencode dictionaries.  Keys are inserted in ascending order, except that the dictionary
of an unfamiliar kind goes in front of the transaction, the version and the kind as it is.
-/

open Bencode (Dictionary Value)

/-- The families wanted, by their names. -/
def Want.toValue : Want → Value
  | v4 => .list [.ofString "n4"]
  | v6 => .list [.ofString "n6"]
  | both => .list [.ofString "n4", .ofString "n6"]

/-- An identifier as a byte string. -/
def NodeId.toValue (id : NodeId) : Value :=
  .bytes id.toBytes

namespace Query

/-- The method of a query as it stands in a message. -/
def methodBytes : Query → Bytes
  | ping .. => Method.ping.bytes
  | findNode .. => Method.findNode.bytes
  | getPeers .. => Method.getPeers.bytes
  | announcePeer .. => Method.announcePeer.bytes
  | other method _ => method

/-- The arguments of a query.  The implied port and the announced one exclude each other. -/
def arguments : Query → Dictionary
  | ping sender => .ofEntries [(Key.id.bytes, some sender.toValue)]
  | findNode sender target want =>
    .ofEntries [
      (Key.id.bytes, some sender.toValue),
      (Key.target.bytes, some target.toValue),
      (Key.want.bytes, want.map Want.toValue)]
  | getPeers sender infoHash want =>
    .ofEntries [
      (Key.id.bytes, some sender.toValue),
      (Key.infoHash.bytes, some infoHash.toValue),
      (Key.want.bytes, want.map Want.toValue)]
  | announcePeer sender infoHash port token =>
    .ofEntries [
      (Key.id.bytes, some sender.toValue),
      (Key.impliedPort.bytes, if port.isNone then some (.integer 1) else none),
      (Key.infoHash.bytes, some infoHash.toValue),
      (Key.port.bytes, port.map fun p => .integer (Int64.ofNat p.toNat)),
      (Key.token.bytes, some (.bytes token))]
  | other _ sender => .ofEntries [(Key.id.bytes, sender.map NodeId.toValue)]

end Query

/-- The dictionary of a response.  Empty lists are left out. -/
def Response.toDictionary (r : Response) : Dictionary :=
  .ofEntries [
    (Key.id.bytes, some r.sender.toValue),
    (Key.nodes.bytes,
      if r.nodes.isEmpty then none else some (.bytes (Compact.encodeContacts .v4 r.nodes))),
    (Key.nodes6.bytes,
      if r.nodes6.isEmpty then none else some (.bytes (Compact.encodeContacts .v6 r.nodes6))),
    (Key.token.bytes, r.token.map Value.bytes),
    (Key.values.bytes, if r.values.isEmpty then none else some (Compact.encodePeers r.values))]

/-- The code and the text of a refusal. -/
def ErrorReply.toValue (e : ErrorReply) : Value :=
  .list [.integer e.code, .ofString e.text]

namespace Body

/-- The entries that tell what a message is about. -/
def entries : Body → List (Bytes × Option Value)
  | query q => [
      (Key.arguments.bytes, some q.arguments.toValue),
      (Key.method.bytes, some (.bytes q.methodBytes))]
  | response r => [(Key.reply.bytes, some r.toDictionary.toValue)]
  | error e => [(Key.error.bytes, some e.toValue)]
  | other _ payload =>
    (payload.entries.filter fun entry =>
      !([Key.transaction.bytes, Key.version.bytes, Key.kind.bytes].contains entry.1)).map
        fun entry => (entry.1, some entry.2)

/-- The kind of a message as it stands in it. -/
def kind : Body → Bytes
  | query _ => Key.method.bytes
  | response _ => Key.reply.bytes
  | error _ => Key.error.bytes
  | other kind _ => kind

end Body

namespace Message

/-- The dictionary of a message. -/
def toDictionary (m : Message) : Dictionary :=
  .ofEntries (m.body.entries ++ [
    (Key.transaction.bytes, some (.bytes m.transaction)),
    (Key.version.bytes, m.version.map Value.bytes),
    (Key.kind.bytes, some (.bytes m.body.kind))])

/-- The datagram of a message. -/
def encode (m : Message) : Bytes :=
  m.toDictionary.encode

end Message
end Kademlia
