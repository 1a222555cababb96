import Kademlia.Address
import Kademlia.Bencode.Value

namespace Kademlia

/-!
The messages that nodes exchange.  A query asks for one of four services, a response answers any
of them and does not say which, an error refuses; all of them carry the transaction by which the
asking node tells the answers apart.
-/

/-- The keys of the dictionaries in messages. -/
inductive Key where
  | transaction
  | kind
  | version
  | method
  | arguments
  | reply
  | error
  | id
  | target
  | infoHash
  | impliedPort
  | port
  | token
  | nodes
  | nodes6
  | values
  | want
deriving DecidableEq, Repr

namespace Key

/-- A key as it stands in a message. -/
def name : Key → String
  | transaction => "t"
  | kind => "y"
  | version => "v"
  | method => "q"
  | arguments => "a"
  | reply => "r"
  | error => "e"
  | id => "id"
  | target => "target"
  | infoHash => "info_hash"
  | impliedPort => "implied_port"
  | port => "port"
  | token => "token"
  | nodes => "nodes"
  | nodes6 => "nodes6"
  | values => "values"
  | want => "want"

def bytes (key : Key) : Bytes :=
  Bytes.ofString key.name

end Key

/-- The families of contacts that a query asks for. -/
inductive Want where
  | v4
  | v6
  | both
deriving DecidableEq, Repr

/-- What a query asks for. -/
inductive Method where
  | ping
  | findNode
  | getPeers
  | announcePeer
deriving DecidableEq, Repr

/-- A method as it stands in a message. -/
def Method.bytes : Method → Bytes
  | ping => Bytes.ofString "ping"
  | findNode => Bytes.ofString "find_node"
  | getPeers => Bytes.ofString "get_peers"
  | announcePeer => Bytes.ofString "announce_peer"

/-- A query and its arguments. -/
inductive Query where
  | ping (sender : NodeId)
  | findNode (sender target : NodeId) (want : Option Want)
  | getPeers (sender : NodeId) (infoHash : InfoHash) (want : Option Want)
  /-- Without a port, the peer is reached at the port that the query came from. -/
  | announcePeer (sender : NodeId) (infoHash : InfoHash) (port : Option UInt16) (token : Bytes)
  /-- A method that is none of the four. -/
  | other (method : Bytes) (sender : Option NodeId)
deriving DecidableEq, Repr

namespace Query

/-- The method of a query, if it is one of the four. -/
def method? : Query → Option Method
  | ping .. => some .ping
  | findNode .. => some .findNode
  | getPeers .. => some .getPeers
  | announcePeer .. => some .announcePeer
  | other .. => none

def sender? : Query → Option NodeId
  | ping sender => some sender
  | findNode sender .. => some sender
  | getPeers sender .. => some sender
  | announcePeer sender .. => some sender
  | other _ sender => sender

end Query

/-- The answer to a query.  What it carries besides its sender depends on the query. -/
structure Response where
  sender : NodeId
  nodes : List Contact := []
  nodes6 : List Contact := []
  values : List Address := []
  token : Option Bytes := none
deriving DecidableEq, Repr

/-- The refusal of a query. -/
structure ErrorReply where
  code : Int64
  text : String
deriving DecidableEq

namespace ErrorReply

/-- The code and the text, with a blank between them. -/
def display (e : ErrorReply) : String :=
  toString e.code.toInt ++ " " ++ e.text

/-- The code of a refusal for want of room. -/
def serverError : Int64 := 202

/-- The code of a refusal of malformed arguments or an invalid token. -/
def protocolError : Int64 := 203

/-- The code of a refusal of a method that is not served. -/
def methodUnknown : Int64 := 204

end ErrorReply

/-- What a message is about. -/
inductive Body where
  | query (query : Query)
  | response (response : Response)
  | error (error : ErrorReply)
  /-- A dictionary of a kind that is none of the three. -/
  | other (kind : Bytes) (payload : Bencode.Dictionary)
deriving DecidableEq

/-- A message: its transaction, the version of the sending program, and what it is about. -/
structure Message where
  transaction : Bytes
  version : Option Bytes
  body : Body
deriving DecidableEq

namespace Message

/-- The version that this program puts into its messages. -/
def ownVersion : Bytes := Bytes.ofString "PN01"

/-- A message of this program. -/
def ofBody (transaction : Bytes) (body : Body) : Message :=
  ⟨transaction, some ownVersion, body⟩

/-- The method of a query, if it is one of the four; no other message has one. -/
def method? (m : Message) : Option Method :=
  match m.body with
  | .query query => query.method?
  | _ => none

/-- The identifier of the sending node, if the message carries it. -/
def sender? (m : Message) : Option NodeId :=
  match m.body with
  | .query query => query.sender?
  | .response response => some response.sender
  | _ => none

/-- Whether the sender runs a program like the one of the given version.  The first two octets of a
version name the program. -/
def isSimilarTo (m : Message) (version : Bytes) : Bool :=
  match m.version with
  | some own => 2 ≤ own.length && 2 ≤ version.length && own.take 2 == version.take 2
  | none => false

end Message
end Kademlia
