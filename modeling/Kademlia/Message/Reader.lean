import Kademlia.Bencode.Reader
import Kademlia.Message.Writer
import Kademlia.Text.Utf8

namespace Kademlia

/-!
Reading messages from datagrams.  A datagram is one bencode dictionary; its kind says what it is
about, and everything that kind needs must be there and well formed.  Malformed arguments of an
otherwise well-formed query are a refusal of their own, since the sender deserves an answer.
-/

open Bencode (Dictionary Value)

/-- Why a datagram is no message. -/
inductive MessageError where
  | encoding (error : Bencode.DecodeError)
  | missing (key : Key)
  | invalid (key : Key)
  | invalidArgument (transaction : Bytes) (key : Key)
deriving DecidableEq, Repr

/-- A cause in words. -/
def MessageError.message : MessageError → String
  | encoding error => error.message
  | missing key => "missing field \x60" ++ key.name ++ "\x60"
  | invalid key => "invalid field \x60" ++ key.name ++ "\x60"
  | invalidArgument _ key => "invalid query argument \x60" ++ key.name ++ "\x60"

/-- Reads one thing from a dictionary, or names the key at fault. -/
abbrev ArgumentReader (α : Type) := Dictionary → Except Key α

/-- A letter of the ASCII alphabet in lower case, any other octet as it is. -/
def asciiLower (b : UInt8) : UInt8 :=
  if 0x41 ≤ b && b ≤ 0x5a then b + 0x20 else b

namespace Want

/-- The families wanted so far and one more item of the list; items that name no family are passed
over. -/
def add (wanted : Option Want) (item : Value) : Option Want :=
  match item with
  | .bytes name =>
    let name := name.map asciiLower
    if name = Bytes.ofString "n4" then
      match wanted with
      | none => some v4
      | some v6 => some both
      | _ => wanted
    else if name = Bytes.ofString "n6" then
      match wanted with
      | none => some v6
      | some v4 => some both
      | _ => wanted
    else wanted
  | _ => wanted

/-- The families that the arguments of a query ask for. -/
def ofArguments (arguments : Dictionary) : Option Want :=
  (arguments.getList? Key.want.bytes) >>= fun items => items.foldl add none

end Want

namespace Query

/-- Takes an identifier of twenty octets from the arguments. -/
def readId (key : Key) : ArgumentReader NodeId := fun arguments =>
  match arguments.getBytes? key.bytes >>= NodeId.ofBytes? with
  | some id => .ok id
  | none => .error key

/-- Takes the announced port from the arguments: none if the port is implied, and otherwise one from
1 to 65535. -/
def readPort : ArgumentReader (Option UInt16) := fun arguments =>
  if 0 < ((arguments.getInteger? Key.impliedPort.bytes).getD 0).toInt then .ok none
  else
    match (arguments.getInteger? Key.port.bytes).map Int64.toInt with
    | some port =>
      if 0 < port ∧ port < UInt16.size then .ok (some (UInt16.ofNat port.toNat)) else .error .port
    | none => .error .port

/-- Takes the token from the arguments. -/
def readToken : ArgumentReader Bytes := fun arguments =>
  match arguments.getBytes? Key.token.bytes with
  | some token => .ok token
  | none => .error .token

/-- Takes the arguments of a method that is none of the four.  If they name a sender and a target,
the query is served like one for the nodes near that target. -/
def readOther (method : Bytes) (arguments : Dictionary) : Query :=
  let sender := (readId .id arguments).toOption
  let target := (readId .target arguments <|> readId .infoHash arguments).toOption
  match sender, target with
  | some sender, some target => findNode sender target (Want.ofArguments arguments)
  | _, _ => other method sender

/-- Takes what a method needs from the arguments.  The announced port is looked at before anything
else. -/
def ofArguments (method : Bytes) : ArgumentReader Query := fun arguments =>
  if method = Method.ping.bytes then
    return ping (← readId .id arguments)
  else if method = Method.findNode.bytes then
    return findNode (← readId .id arguments) (← readId .target arguments)
      (Want.ofArguments arguments)
  else if method = Method.getPeers.bytes then
    return getPeers (← readId .id arguments) (← readId .infoHash arguments)
      (Want.ofArguments arguments)
  else if method = Method.announcePeer.bytes then do
    let port ← readPort arguments
    return announcePeer (← readId .id arguments) (← readId .infoHash arguments) port
      (← readToken arguments)
  else
    return readOther method arguments

end Query

namespace Message

/-- What a dictionary holds under a key, seen as a certain type of value. -/
def readField {α : Type} (d : Dictionary) (key : Key) (view : Value → Option α) :
    Except MessageError α :=
  match d.get? key.bytes with
  | none => .error (.missing key)
  | some value =>
    match view value with
    | some found => .ok found
    | none => .error (.invalid key)

/-- What a dictionary holds under a key that may be absent. -/
def readOptional {α : Type} (d : Dictionary) (key : Key) (view : Value → Option α) :
    Except MessageError (Option α) :=
  match d.get? key.bytes with
  | none => .ok none
  | some value =>
    match view value with
    | some found => .ok (some found)
    | none => .error (.invalid key)

/-- The query of a message with the given transaction. -/
def readQuery (d : Dictionary) (transaction : Bytes) : Except MessageError Query := do
  let method ← readField d .method Value.asBytes?
  let arguments ← readField d .arguments Value.asDict?
  match Query.ofArguments method arguments with
  | .ok query => return query
  | .error key => throw (.invalidArgument transaction key)

/-- The contacts of one family that a value lists. -/
def contacts? (family : Family) (value : Value) : Option (List Contact) :=
  value.asBytes? >>= fun bytes => (Compact.decodeContacts family bytes).toOption

/-- The peers that a value lists. -/
def peers? (value : Value) : Option (List Address) :=
  value.asList? >>= fun items => (Compact.decodePeers items).toOption

/-- The response that the reply of a message holds. -/
def readResponse (reply : Dictionary) : Except MessageError Response := do
  let sender ← readField reply .id fun value => value.asBytes? >>= NodeId.ofBytes?
  let nodes ← readOptional reply .nodes (contacts? .v4)
  let nodes6 ← readOptional reply .nodes6 (contacts? .v6)
  let values ← readOptional reply .values peers?
  let token ← readOptional reply .token Value.asBytes?
  return ⟨sender, nodes.getD [], nodes6.getD [], values.getD [], token⟩

/-- The refusal that a value describes: a list of exactly a code and a text. -/
def errorReply? (value : Value) : Option ErrorReply :=
  match value with
  | .list [.integer code, .bytes text] => some ⟨code, Utf8.lossy text⟩
  | _ => none

/-- What a message of the given kind is about. -/
def readBody (d : Dictionary) (transaction kind : Bytes) : Except MessageError Body :=
  if kind = Key.method.bytes then
    Body.query <$> readQuery d transaction
  else if kind = Key.reply.bytes then do
    let reply ← readField d .reply Value.asDict?
    Body.response <$> readResponse reply
  else if kind = Key.error.bytes then
    Body.error <$> readField d .error errorReply?
  else
    return .other kind d

/-- The message that a dictionary holds.  A version that is no byte string counts as none. -/
def ofDictionary (d : Dictionary) : Except MessageError Message := do
  let transaction ←
    match d.getBytes? Key.transaction.bytes with
    | some transaction => pure transaction
    | none => throw (.missing .transaction)
  let kind ← readField d .kind Value.asBytes?
  let body ← readBody d transaction kind
  return ⟨transaction, d.getBytes? Key.version.bytes, body⟩

/-- The message of a datagram. -/
def decode (datagram : Bytes) : Except MessageError Message :=
  match Bencode.decodeDictionary datagram with
  | .ok d => ofDictionary d
  | .error error => .error (.encoding error)

end Message
end Kademlia
