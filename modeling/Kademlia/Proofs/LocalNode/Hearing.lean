import Kademlia.Proofs.LocalNode.Rejecting
import Kademlia.Proofs.LocalNode.Searches

namespace Kademlia
namespace LocalNode

/-!
# What a node hears

A datagram is a query, or it settles a query of the node itself, by a response or a refusal, or it
comes to nothing (`Heard`).  A response is taken note of in the routing table first, and then goes
to what the query was sent for (`Responded`).
-/

variable {n : LocalNode} {env : Surroundings} {sender : Address} {data : Bytes}
  {message : Message}

/-! ## Queries and responses -/

/-- A node with an address has sent a query, which is to be answered. -/
def Queried (n : LocalNode) (event : Event) (sender : Contact) : Prop :=
  n.readOnly = false ∧ ∃ data message query,
    event = .datagram sender.address data ∧
      Message.decode (data.take maxDatagramLength) = .ok message ∧
      message.body = .query query ∧ query.sender? = some sender.id

/-- A response has come that a query waits for, from the host that was asked. -/
def Receives (n : LocalNode) (event : Event) (sender : Address) (response : Response)
    (t : Transaction) : Prop :=
  ∃ data message, event = .datagram sender data ∧
    Message.decode (data.take maxDatagramLength) = .ok message ∧
    message.body = .response response ∧
    TransactionId.ofBytes? message.transaction = some t.id ∧
    n.transactions.get? t.id = some t ∧ t.destination.address.ip = sender.ip

/-- The nodes that are taken note of in a response: those of the own family, but the node itself. -/
def listed (n : LocalNode) (response : Response) : List Contact :=
  (if n.family = .v4 then response.nodes else response.nodes6).filter fun c =>
    c.id ≠ n.id && c.address ≠ n.localAddress

/-- A query has been settled. -/
def settle (n : LocalNode) (t : Transaction) : LocalNode :=
  { n with
    transactions := n.transactions.erase t.id
    timer := (n.timer.cancel t.id).2 }

/-- What comes of a datagram. -/
inductive Heard (env : Surroundings) (n : LocalNode) (sender : Address) (data : Bytes) :
    LocalNode → Prop
  | nothing (transactions : Transactions) : Heard env n sender data { n with transactions }
  | query {message : Message} {query : Query} : n.readOnly = false →
    Message.decode (data.take maxDatagramLength) = .ok message → message.body = .query query →
    Heard env n sender data (n.handleQuery env sender message query)
  | malformed (transaction : Bytes) (key : Key) :
    Heard env n sender data (n.handleMalformed env sender transaction key)
  | response {message : Message} {response : Response} {t : Transaction} :
    n.Receives (.datagram sender data) sender response t →
    Heard env n sender data ((n.settle t).handleResponse env sender message response t)
  | refusal {t : Transaction} : n.transactions.get? t.id = some t →
    Heard env n sender data ((n.settle t).queryFailed env t false)

theorem heard_handleDatagram (env : Surroundings) (n : LocalNode) (sender : Address)
    (data : Bytes) : Heard env n sender data (n.handleDatagram env sender data) := by
  rw [handleDatagram]
  split
  next message read =>
    have hTaken := takeTransaction_cases n sender message.transaction
    rw [handleMessage]
    split
    next query about =>
      split
      next => exact .nothing n.transactions
      next answers => exact .query (Bool.eq_false_iff.mpr answers) read about
    next response about =>
      generalize n.takeTransaction sender message.transaction = taken at hTaken ⊢
      cases hTaken with
      | unknown => exact .nothing n.transactions
      | elsewhere => exact .nothing _
      | own waits host number =>
        exact .response ⟨data, message, rfl, read, about, number, waits, host⟩
    next error about =>
      generalize n.takeTransaction sender message.transaction = taken at hTaken ⊢
      cases hTaken with
      | unknown => exact .nothing n.transactions
      | elsewhere => exact .nothing _
      | own waits => exact .refusal waits
    next => exact .nothing n.transactions
  next transaction key _ =>
    split
    · exact .nothing n.transactions
    · exact .malformed transaction key
  next => exact .nothing n.transactions

/-- An event brings no more than one response. -/
theorem receives_unique {event : Event} {other : Address} {response response' : Response}
    {t t' : Transaction} (first : n.Receives event sender response t)
    (second : n.Receives event other response' t') :
    sender = other ∧ response = response' ∧ t = t' := by
  rcases first with ⟨data, message, rfl, read, about, number, waits, -⟩
  rcases second with ⟨data', message', same, read', about', number', waits', -⟩
  rcases Event.datagram.inj same with ⟨rfl, rfl⟩
  rcases Except.ok.inj (read.symm.trans read') with rfl
  rcases Body.response.inj (about.symm.trans about') with rfl
  have hNumber := Option.some.inj (number.symm.trans number')
  rw [hNumber] at waits
  exact ⟨rfl, rfl, Option.some.inj (waits.symm.trans waits')⟩

/-- The query that an answer belongs to is settled. -/
theorem takeTransaction_of_own {transaction : Bytes} {t : Transaction}
    (number : TransactionId.ofBytes? transaction = some t.id)
    (waits : n.transactions.get? t.id = some t) (host : t.destination.address.ip = sender.ip) :
    n.takeTransaction sender transaction = (some t, n.settle t) := by
  rw [takeTransaction, number]
  dsimp only
  rw [Transactions.take, waits]
  exact if_pos host

/-- A response that a query waits for settles the query and is handled. -/
theorem handleDatagram_of_receives {response : Response} {t : Transaction}
    (receives : n.Receives (.datagram sender data) sender response t) :
    ∃ message, n.handleDatagram env sender data =
      (n.settle t).handleResponse env sender message response t := by
  rcases receives with ⟨data', message, same, read, about, number, waits, host⟩
  rcases Event.datagram.inj same with ⟨-, rfl⟩
  refine ⟨message, ?_⟩
  rw [handleDatagram, read]
  dsimp only
  rw [handleMessage, about]
  dsimp only
  rw [takeTransaction_of_own number waits host]

/-- The response to an own query that a datagram brings. -/
def response? (n : LocalNode) (sender : Address) (data : Bytes) : Option (Response × Transaction) :=
  match Message.decode (data.take maxDatagramLength) with
  | .ok message =>
    match message.body with
    | .response response => (n.takeTransaction sender message.transaction).1.map (response, ·)
    | _ => none
  | .error _ => none

theorem response?_eq_some_iff {response : Response} {t : Transaction} :
    n.response? sender data = some (response, t) ↔
      n.Receives (.datagram sender data) sender response t := by
  constructor
  · intro brought
    unfold response? at brought
    split at brought
    next message read =>
      split at brought
      next response' about =>
        rcases Option.map_eq_some_iff.mp brought with ⟨t', taken, same⟩
        rcases Prod.mk.inj same with ⟨rfl, rfl⟩
        have hTaken := takeTransaction_cases n sender message.transaction
        generalize n.takeTransaction sender message.transaction = result at hTaken taken
        cases hTaken with
        | unknown => cases taken
        | elsewhere => cases taken
        | own waits host number =>
          cases taken
          exact ⟨data, message, rfl, read, about, number, waits, host⟩
      next => cases brought
    next => cases brought
  · rintro ⟨data', message, same, read, about, number, waits, host⟩
    rcases Event.datagram.inj same with ⟨-, rfl⟩
    rw [response?, read]
    dsimp only
    rw [about]
    dsimp only
    rw [takeTransaction_of_own number waits host]
    rfl

/-! ## What is done with a response -/

/-- A response is taken note of in the routing table. -/
def hear (env : Surroundings) (n : LocalNode) (sender : Address) (message : Message)
    (response : Response) : LocalNode :=
  { n with
    table :=
      (if n.bootstrap.isRouter sender ∨ response.sender = n.id then n.table
        else n.table.answered env.now ⟨response.sender, sender⟩ message.version).learnAll env.now
        (n.listed response) }

/-- What a response that was taken note of leads to. -/
inductive Responded (env : Surroundings) (n : LocalNode) (sender : Address) (response : Response)
    (t : Transaction) : LocalNode → Prop
  | search (id : LookupId) : t.owner = .lookup id → IsSearch t.query →
    Responded env n sender response t
      (n.lookupResponse env id t.id ⟨response.sender, sender⟩ response (n.listed response))
  | announce (id : LookupId) (contact : Contact) : t.owner = .announce id →
    Responded env n sender response t (n.announceReply env id contact true)
  | ping (node : Contact) (compatible : Bool) : ¬ IsSearch t.query →
    Responded env n sender response t (n.notify (.nodePinged node compatible))
  | passed : (∀ id, t.owner = .lookup id → ¬ IsSearch t.query) →
    Responded env n sender response t n

theorem responded_handleResponse (env : Surroundings) (n : LocalNode) (sender : Address)
    (message : Message) (response : Response) (t : Transaction) :
    Responded env (n.hear env sender message response) sender response t
      (n.handleResponse env sender message response t) := by
  unfold handleResponse
  dsimp only
  generalize hListed : List.filter _ (_ : List Contact) = nodes
  have hNodes : n.listed response = nodes := by
    rw [← hListed, listed]
    generalize n.family = own
    cases own with
    | v4 => rfl
    | v6 => rfl
  generalize hHeard : ({ n with table := _ } : LocalNode) = heard
  have hSame : n.hear env sender message response = heard := by
    rw [← hHeard, hear, hNodes]
  have hAgain : heard.listed response = nodes := by
    rw [← hSame, ← hNodes]
    rfl
  rw [hSame]
  split
  next ping =>
    refine .ping _ _ ?_
    rintro (nodes | peers)
    · cases ping.symm.trans nodes
    · cases ping.symm.trans peers
  next id method owner =>
    rw [← hAgain]
    exact .search id owner (.inl method)
  next id method owner =>
    rw [← hAgain]
    exact .search id owner (.inr method)
  next id _ owner => exact .announce id _ owner
  next nodes peers _ =>
    refine .passed fun id owner search => ?_
    rcases search with method | method
    · exact nodes id method owner
    · exact peers id method owner

/-! ## What is done with a query -/

/-- A node has looked into its tokens and peers, and may have notified the application. -/
def Consulted (n m : LocalNode) : Prop :=
  ∃ tokens store, ∃ notices : List Notice,
    m = { n with tokens, store, outbox := n.outbox ++ notices.map .notice }

theorem consulted_silently (n : LocalNode) (tokens : TokenStore) (store : PeerStore) :
    Consulted n { n with tokens, store } := by
  refine ⟨tokens, store, [], ?_⟩
  rw [List.map_nil, List.append_nil]

theorem consulted_notify (n : LocalNode) (tokens : TokenStore) (store : PeerStore)
    (notice : Notice) : Consulted n ({ n with tokens, store }.notify notice) :=
  ⟨tokens, store, [notice], rfl⟩

theorem consulted_answerAnnounce (env : Surroundings) (n : LocalNode) (sender : Address)
    (infoHash : InfoHash) (port : Option UInt16) (token : Bytes) :
    Consulted n (n.answerAnnounce env sender infoHash port token).2 := by
  rw [answerAnnounce]
  split
  next valid checked same =>
    have hChecked : checked = { n with tokens := checked.tokens } := by
      split at same
      · cases same
        rfl
      · cases same
        rfl
    rw [hChecked]
    split
    · exact consulted_silently n _ _
    · dsimp only
      split
      · exact consulted_silently n _ _
      · split
        · exact consulted_notify n _ _ _
        · exact consulted_silently n _ _
      · split
        · exact consulted_notify n _ _ _
        · exact consulted_silently n _ _

theorem consulted_answer (env : Surroundings) (n : LocalNode) (sender : Address)
    (compatible : Bool) (query : Query) :
    Consulted n (n.answer env sender compatible query).2 := by
  cases query with
  | ping id => exact consulted_notify n n.tokens n.store _
  | findNode id target want => exact consulted_silently n n.tokens n.store
  | getPeers id infoHash want => exact consulted_silently n _ n.store
  | announcePeer id infoHash port token => exact consulted_answerAnnounce ..
  | other method id => exact consulted_silently n n.tokens n.store

/-- The sender of a query is taken note of in the routing table, unless it is a router. -/
def Noted (env : Surroundings) (n : LocalNode) (sender : Address) (message : Message)
    (query : Query) (table : Routing.Table) : Prop :=
  table = n.table ∨ ∃ id, query.sender? = some id ∧ n.bootstrap.isRouter sender = false ∧
    table = n.table.requested env.now ⟨id, sender⟩ message.version

/-- A query is answered after its sender was taken note of. -/
theorem handleQuery_noted (env : Surroundings) (n : LocalNode) (sender : Address)
    (message : Message) (query : Query) :
    ∃ table, n.Noted env sender message query table ∧
      let answered := ({ n with table } : LocalNode).answer env sender
        (message.isSimilarTo Message.ownVersion) query
      n.handleQuery env sender message query =
        (answered.2.send env sender (.ofBody message.transaction answered.1)).2 := by
  rw [handleQuery]
  cases asks : query.sender? with
  | none => exact ⟨n.table, .inl rfl, rfl⟩
  | some id =>
    dsimp only
    cases stranger : n.bootstrap.isRouter sender with
    | true => exact ⟨n.table, .inl rfl, rfl⟩
    | false => exact ⟨_, .inr ⟨id, asks, stranger, rfl⟩, rfl⟩

/-- Nothing else comes of a query. -/
theorem handleQuery_cases (env : Surroundings) (n : LocalNode) (sender : Address)
    (message : Message) (query : Query) :
    ∃ table m body, n.Noted env sender message query table ∧ Consulted { n with table } m ∧
      n.handleQuery env sender message query =
        (m.send env sender (.ofBody message.transaction body)).2 := by
  rcases handleQuery_noted env n sender message query with ⟨table, noted, handled⟩
  exact ⟨table, _, _, noted, consulted_answer .., handled⟩

theorem handleDatagram_of_query {query : Query} (answers : n.readOnly = false)
    (read : Message.decode (data.take maxDatagramLength) = .ok message)
    (about : message.body = .query query) :
    n.handleDatagram env sender data = n.handleQuery env sender message query := by
  rw [handleDatagram, read]
  dsimp only
  rw [handleMessage, about]
  exact if_neg (Bool.eq_false_iff.mp answers)

end LocalNode
end Kademlia
