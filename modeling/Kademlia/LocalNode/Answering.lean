import Kademlia.LocalNode.Searching
import Kademlia.Message.Reader

namespace Kademlia
namespace LocalNode

/-!
What a node does with datagrams.  Every query is answered, by a response or a refusal; answers to
its own queries are matched with these, and anything else is passed over.
-/

/-- The closest nodes of one family, without the one that asks. -/
def closestOf (env : Surroundings) (n : LocalNode) (target : NodeId) (family : Family)
    (requester : Address) : List Contact :=
  n.table.closestWhere env.now target neighbourCount fun c =>
    c.family = family && c.address ≠ requester

/-- The closest nodes of the families that a query wants; if it does not say, of the own one. -/
def closestWanted (env : Surroundings) (n : LocalNode) (target : NodeId) (want : Option Want)
    (requester : Address) : List Contact × List Contact :=
  let want := want.getD (match n.family with | .v4 => .v4 | .v6 => .v6)
  (if want = .v4 ∨ want = .both then n.closestOf env target .v4 requester else [],
    if want = .v6 ∨ want = .both then n.closestOf env target .v6 requester else [])

/-- The refusal of a query. -/
def refuse (code : Int64) (text : String) : Body :=
  .error ⟨code, text⟩

/-- The answer to an announcement.  The token must have been issued to the host of the sender,
unless the settings say otherwise. -/
def answerAnnounce (env : Surroundings) (n : LocalNode) (sender : Address) (infoHash : InfoHash)
    (port : Option UInt16) (token : Bytes) : Body × LocalNode :=
  let (valid, n) :=
    if n.settings.validateTokens then
      let (valid, tokens) := n.tokens.checkin env.now sender.ip token
      (valid, { n with tokens })
    else (true, n)
  if !valid then (refuse ErrorReply.protocolError "received an invalid token", n)
  else
    let peer : Address := { sender with port := port.getD sender.port }
    let (outcome, store) := n.store.add env.now infoHash peer
    let n := { n with store }
    match outcome with
    | .full => (refuse ErrorReply.serverError "announce storage is full", n)
    | .inserted | .refreshed =>
      let n :=
        if some infoHash = n.networkHash ∧ !n.isOwnEndpoint peer then
          n.notify (.peerFound infoHash peer)
        else n
      (.response { sender := n.id }, n)

/-- The answer to a query. -/
def answer (env : Surroundings) (n : LocalNode) (sender : Address) (compatible : Bool)
    (query : Query) : Body × LocalNode :=
  match query with
  | .ping id => (.response { sender := n.id }, n.notify (.nodePinged ⟨id, sender⟩ compatible))
  | .findNode _ target want =>
    let (nodes, nodes6) := n.closestWanted env target want sender
    (.response { sender := n.id, nodes, nodes6 }, n)
  | .getPeers _ infoHash want =>
    let values := ((n.store.find env.now infoHash).filter (·.family = sender.family)).take maxValues
    let (nodes, nodes6) := n.closestWanted env infoHash want sender
    let (token, tokens) := n.tokens.checkout env.now sender.ip
    (.response { sender := n.id, nodes, nodes6, values, token := some token.toBytes },
      { n with tokens })
  | .announcePeer _ infoHash port token => n.answerAnnounce env sender infoHash port token
  | .other _ _ => (refuse ErrorReply.methodUnknown "Method Unknown", n)

/-- Handles a query.  Its sender is taken into the routing table, unless it is a router. -/
def handleQuery (env : Surroundings) (n : LocalNode) (sender : Address) (message : Message)
    (query : Query) : LocalNode :=
  let n :=
    match query.sender? with
    | some id =>
      if n.bootstrap.isRouter sender then n
      else { n with table := n.table.requested env.now ⟨id, sender⟩ message.version }
    | none => n
  let (body, n) := n.answer env sender (message.isSimilarTo Message.ownVersion) query
  (n.send env sender (.ofBody message.transaction body)).2

/-- Handles a query with malformed arguments. -/
def handleMalformed (env : Surroundings) (n : LocalNode) (sender : Address) (transaction : Bytes)
    (key : Key) : LocalNode :=
  let body := refuse ErrorReply.protocolError ("invalid argument: " ++ key.name)
  (n.send env sender (.ofBody transaction body)).2

/-- Takes out the query that an answer belongs to, and its time-out.  If the answer comes from another
host than the one that was asked, the query is put back. -/
def takeTransaction (n : LocalNode) (sender : Address) (transaction : Bytes) :
    Option Transaction × LocalNode :=
  match TransactionId.ofBytes? transaction with
  | none => (none, n)
  | some id =>
    match n.transactions.take id with
    | (none, transactions) => (none, { n with transactions })
    | (some t, transactions) =>
      if t.destination.address.ip = sender.ip then
        (some t, { n with transactions, timer := (n.timer.cancel id).2 })
      else (none, { n with transactions := transactions.record t })

/-- Handles the response to a query that was waiting.  Its sender and the nodes that it lists are
taken into the routing table, except for routers and the node itself. -/
def handleResponse (env : Surroundings) (n : LocalNode) (sender : Address) (message : Message)
    (response : Response) (t : Transaction) : LocalNode :=
  let contact : Contact := ⟨response.sender, sender⟩
  let table :=
    if n.bootstrap.isRouter sender ∨ response.sender = n.id then n.table
    else n.table.answered env.now contact message.version
  let listed :=
    match n.family with
    | .v4 => response.nodes
    | .v6 => response.nodes6
  let nodes := listed.filter fun c => c.id ≠ n.id && c.address ≠ n.localAddress
  let n := { n with table := table.learnAll env.now nodes }
  match t.query.method?, t.owner with
  | some .ping, _ =>
    n.notify (.nodePinged contact (message.isSimilarTo Message.ownVersion))
  | some .findNode, .lookup id | some .getPeers, .lookup id =>
    n.lookupResponse env id t.id contact response nodes
  | some .announcePeer, .announce id =>
    n.announceReply env id ⟨t.nodeId.getD response.sender, t.destination.address⟩ true
  | _, _ => n

/-- Handles a message. -/
def handleMessage (env : Surroundings) (n : LocalNode) (sender : Address) (message : Message) :
    LocalNode :=
  match message.body with
  | .query query => if n.readOnly then n else n.handleQuery env sender message query
  | .response response =>
    match n.takeTransaction sender message.transaction with
    | (some t, n) => n.handleResponse env sender message response t
    | (none, n) => n
  | .error _ =>
    match n.takeTransaction sender message.transaction with
    | (some t, n) => n.queryFailed env t false
    | (none, n) => n
  | .other _ _ => n

/-- Handles a datagram, of which only the beginning is seen if it is too long. -/
def handleDatagram (env : Surroundings) (n : LocalNode) (sender : Address) (data : Bytes) :
    LocalNode :=
  match Message.decode (data.take maxDatagramLength) with
  | .ok message => n.handleMessage env sender message
  | .error (.invalidArgument transaction key) =>
    if n.readOnly then n else n.handleMalformed env sender transaction key
  | .error _ => n

end LocalNode
end Kademlia
