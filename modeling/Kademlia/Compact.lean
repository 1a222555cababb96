import Kademlia.Address
import Kademlia.Bencode.Value

namespace Kademlia
namespace Compact

/-!
The compact form of peers and contacts.  A peer is its host address followed by its port; a contact
is its identifier followed by a peer.  Lists of contacts are of one family and written as one byte
string, lists of peers may mix families and are written as a list of byte strings.  Sockets are
written as the peers that they are, and read as sockets that are no more than that.
-/

/-- The number of octets of a peer. -/
def peerLength : Family → Nat
  | .v4 => 6
  | .v6 => 18

/-- The number of octets of a contact. -/
def contactLength (family : Family) : Nat :=
  NodeId.width + peerLength family

/-- Why a compact form is refused. -/
inductive CompactError where
  | contactListLength (length record : Nat)
  | peerLength (length : Nat)
  | peerType
deriving DecidableEq, Repr

/-- A cause in words. -/
def CompactError.message : CompactError → String
  | contactListLength length record =>
    "compact node list length " ++ toString length ++ " is not a multiple of " ++ toString record
  | peerLength length => "compact peer has invalid length " ++ toString length
  | peerType => "compact peer list contains a non byte string"

/-- A peer: the octets of its host address and two of its port. -/
def encodePeer (peer : Address) : Bytes :=
  peer.ip.octets ++ BigEndian.encode 2 peer.port.toNat

/-- The peer of a compact form; the number of octets tells the family. -/
def decodePeer? (bytes : Bytes) : Option Address :=
  if bytes.length = peerLength .v4 ∨ bytes.length = peerLength .v6 then
    let split := bytes.length - 2
    (Ip.ofOctets? (bytes.take split)).map fun ip =>
      ⟨ip, UInt16.ofNat (BigEndian.decode (bytes.drop split))⟩
  else none

/-- A contact: the octets of its identifier and those of its address. -/
def encodeContact (contact : Contact) : Bytes :=
  contact.id.toBytes ++ encodePeer contact.address

/-- The contact of a compact form. -/
def decodeContact? (bytes : Bytes) : Option Contact := do
  let id ← NodeId.ofBytes? (bytes.take NodeId.width)
  let address ← decodePeer? (bytes.drop NodeId.width)
  return ⟨id, address⟩

/-- The contacts of one family, one after another; those of the other family are passed over. -/
def encodeContacts (family : Family) (contacts : List Contact) : Bytes :=
  (contacts.filter (·.family = family)).flatMap encodeContact

/-- The contacts that a byte string lists. -/
def decodeContacts (family : Family) (bytes : Bytes) : Except CompactError (List Contact) :=
  let record := contactLength family
  if bytes.length % record ≠ 0 then .error (.contactListLength bytes.length record)
  else .ok ((Bytes.chunks record (bytes.length / record) bytes).filterMap decodeContact?)

/-- The list of the compact forms of some peers. -/
def encodePeers (peers : List Address) : Bencode.Value :=
  .list (peers.map fun peer => .bytes (encodePeer peer))

/-- The peer that one item of a list stands for. -/
def decodePeer (item : Bencode.Value) : Except CompactError Address :=
  match item with
  | .bytes content =>
    match decodePeer? content with
    | some peer => .ok peer
    | none => .error (.peerLength content.length)
  | _ => .error .peerType

/-- The peers that a list stands for; its first bad item decides about a refusal. -/
def decodePeers (items : List Bencode.Value) : Except CompactError (List Address) :=
  items.mapM decodePeer

/-- The compact form of a socket has no room for anything but its host and its port. -/
def encodeSocket (socket : SocketAddress) : Bytes :=
  encodePeer socket.address

/-- The socket of a compact form, without a flow and without a link. -/
def decodeSocket? (bytes : Bytes) : Option SocketAddress :=
  (decodePeer? bytes).map .ofAddress

/-- The nodes of one family as a list of contacts. -/
def encodeHandles (family : Family) (handles : List Handle) : Bytes :=
  encodeContacts family (handles.map (·.contact))

def decodeHandles (family : Family) (bytes : Bytes) : Except CompactError (List Handle) :=
  (decodeContacts family bytes).map (List.map .ofContact)

/-- The list of the compact forms of some sockets. -/
def encodeSockets (sockets : List SocketAddress) : Bencode.Value :=
  encodePeers (sockets.map (·.address))

def decodeSockets (items : List Bencode.Value) : Except CompactError (List SocketAddress) :=
  (decodePeers items).map (List.map .ofAddress)

end Compact
end Kademlia
