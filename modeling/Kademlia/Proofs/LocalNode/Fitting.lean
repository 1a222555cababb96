import Kademlia.Proofs.LocalNode.Course
import Kademlia.Proofs.LocalNode.Hearing
import Kademlia.Proofs.LocalNode.Replying
import Kademlia.Proofs.Message.Size
import Mathlib.Data.List.Induction

namespace Kademlia

/-!
# Responses that fit into a datagram

A datagram is cut when it is too long, and a message that was cut is not read at all, since no
dictionary is the beginning of another.  A node that is asked for peers names up to a hundred of the
family of the one that asks.  With addresses of the fourth version, the response fits into a
datagram whatever else it lists.  A peer of the sixth version takes more than twice the room: some
forty of them always fit, and from sixty-eight on the response is lost.
-/

namespace Message

open LocalNode (maxDatagramLength)

variable {data : Bytes} {message : Message}

/-- A message that was cut is not read. -/
theorem decode_take_ne_ok (read : decode data = .ok message) {length : Nat}
    (cut : length < data.length) (other : Message) : decode (data.take length) ≠ .ok other := by
  have hDictionary : ∀ {text : Bytes} {read : Message}, decode text = .ok read →
      ∃ d : Bencode.Dictionary, Bencode.Derives 0 text d.toValue := by
    intro text read same
    cases found : Bencode.decodeDictionary text with
    | ok d =>
      exact ⟨d, Bencode.decode_eq_ok_iff.mp (Bencode.decodeDictionary_eq_ok_iff.mp found)⟩
    | error error =>
      rw [decode, found] at same
      cases same
  intro readToo
  rcases hDictionary readToo with ⟨short, derivesShort⟩
  rcases hDictionary read with ⟨long, derivesLong⟩
  rw [← List.take_append_drop length data] at derivesLong
  have hNothing := derivesShort.prefix_free derivesLong
  rw [List.drop_eq_nil_iff] at hNothing
  omega

/-- The version of this program is short enough for any message. -/
theorem version_ofBody (transaction : Bytes) (body : Body) :
    ∀ version ∈ (ofBody transaction body).version, version.length ≤ 2147483647 := by
  intro version same
  rcases Option.some.inj same with rfl
  decide +kernel

/-- A node that is sent the message reads it, from as much of the datagram as it accepts. -/
def Arrives (message : Message) : Prop :=
  decode (message.encode.take maxDatagramLength) = .ok message

theorem arrives_iff (regular : message.Regular) :
    message.Arrives ↔ message.encode.length ≤ maxDatagramLength := by
  have hRead := (decode_encode_of_sound regular.sound).trans regular.ofDictionary_toDictionary
  constructor
  · intro arrives
    by_contra long
    exact decode_take_ne_ok hRead (Nat.lt_of_not_le long) message arrives
  · intro fits
    rw [Arrives, List.take_of_length_le fits]
    exact hRead

end Message

namespace LocalNode

variable {n : LocalNode} {env : Surroundings} {sender : Address}

/-! ## What is listed -/

/-- The peers that are named to one who searches for them. -/
def namedPeers (n : LocalNode) (now : Instant) (family : Family) (infoHash : InfoHash) :
    List Address :=
  ((n.storedPeers now infoHash).filter (·.family = family)).take maxValues

theorem namedPeers_of_mem {now : Instant} {family : Family} {infoHash : InfoHash} {peer : Address}
    (named : peer ∈ n.namedPeers now family infoHash) : peer.family = family := by
  have hStored := List.mem_of_mem_take named
  exact of_decide_eq_true (List.mem_filter.mp hStored).2

/-- What the response to one who searches for peers consists of. -/
structure Names (n : LocalNode) (now : Instant) (family : Family) (infoHash : InfoHash)
    (response : Response) : Prop where
  nodes : ∀ contact ∈ response.nodes, contact.family = .v4
  nodes6 : ∀ contact ∈ response.nodes6, contact.family = .v6
  few : response.nodes.length ≤ neighbourCount
  few6 : response.nodes6.length ≤ neighbourCount
  values : response.values = n.namedPeers now family infoHash
  token : ∃ token : Bytes, response.token = some token ∧ token.length = 4

theorem Names.of_store {m : LocalNode} {now : Instant} {family : Family} {infoHash : InfoHash}
    {response : Response} (names : m.Names now family infoHash response)
    (store : m.store = n.store) :
    n.Names now family infoHash response := by
  have hValues : response.values = n.namedPeers now family infoHash := by
    rw [names.values, namedPeers, namedPeers, storedPeers, storedPeers, store]
  exact { names with values := hValues }

theorem closestOf_spec (env : Surroundings) (n : LocalNode) (target : NodeId) (family : Family)
    (requester : Address) :
    (∀ contact ∈ n.closestOf env target family requester, contact.family = family) ∧
      (n.closestOf env target family requester).length ≤ neighbourCount := by
  rw [closestOf, Routing.Table.closestWhere, Routing.Table.nearest]
  refine ⟨fun contact listed => ?_, List.length_take_le _ _⟩
  have hChosen := List.mem_mergeSort.mp (List.mem_of_mem_take listed)
  have hMeets := (Bool.and_eq_true_iff.mp (List.mem_filter.mp hChosen).2).1
  exact of_decide_eq_true hMeets

theorem closestWanted_spec (env : Surroundings) (n : LocalNode) (target : NodeId)
    (want : Option Want) (requester : Address) :
    ((∀ contact ∈ (n.closestWanted env target want requester).1, contact.family = .v4) ∧
      (n.closestWanted env target want requester).1.length ≤ neighbourCount) ∧
    (∀ contact ∈ (n.closestWanted env target want requester).2, contact.family = .v6) ∧
      (n.closestWanted env target want requester).2.length ≤ neighbourCount := by
  have hSome : ∀ (wanted : Prop) [Decidable wanted] (family : Family),
      (∀ contact ∈ if wanted then n.closestOf env target family requester else [],
        contact.family = family) ∧
      (if wanted then n.closestOf env target family requester else []).length ≤
        neighbourCount := by
    intro wanted _ family
    split
    · exact closestOf_spec env n target family requester
    · exact ⟨nofun, Nat.zero_le _⟩
  exact ⟨hSome _ .v4, hSome _ .v6⟩

/-- One who searches for peers is answered, and nothing but the tokens changes. -/
theorem answer_getPeers (env : Surroundings) (n : LocalNode) (sender : Address) (compatible : Bool)
    (id : NodeId) (infoHash : InfoHash) (want : Option Want) :
    ∃ response tokens,
      n.answer env sender compatible (.getPeers id infoHash want) =
        (.response response, { n with tokens }) ∧
      n.Names env.now sender.family infoHash response := by
  rcases closestWanted_spec env n infoHash want sender with ⟨⟨nodes, few⟩, nodes6, few6⟩
  exact ⟨_, _, rfl, nodes, nodes6, few, few6, rfl, _, rfl, BigEndian.length_encode 4 _⟩

/-- One who searches for peers is sent a response, and nothing else. -/
theorem replies_getPeers {data : Bytes} {message : Message} {id : NodeId} {infoHash : InfoHash}
    {want : Option Want} (running : n.running = true) (answers : n.readOnly = false)
    (read : Message.decode (data.take maxDatagramLength) = .ok message)
    (about : message.body = .query (.getPeers id infoHash want)) :
    ∃ response delivered,
      (n.step env (.datagram sender data)).replies =
        [.sent sender (.ofBody message.transaction (.response response)) delivered] ∧
      n.Names env.now sender.family infoHash response := by
  have hAnswers : ({ n with outbox := [] } : LocalNode).readOnly = false := answers
  rcases handleQuery_noted env { n with outbox := [] } sender message (.getPeers id infoHash want)
    with ⟨table, -, handled⟩
  rcases answer_getPeers env { n with outbox := [], table } sender
    (message.isSimilarTo Message.ownVersion) id infoHash want with
    ⟨response, tokens, answered, names⟩
  have hReply : IsAnswer (.ofBody message.transaction (.response response)) := .inl ⟨_, rfl⟩
  have hReplies := @replies_step n env running (.datagram sender data)
  rw [handleEvent, handleDatagram_of_query hAnswers read about, handled, answered] at hReplies
  exact ⟨response, _, hReplies.trans (replies_send hReply _), names.of_store rfl⟩

/-! ## Its size -/

namespace Names

variable {now : Instant} {family : Family} {infoHash : InfoHash} {response : Response}

theorem regular (names : n.Names now family infoHash response) {transaction : Bytes}
    (short : transaction.length ≤ 2) :
    (Message.ofBody transaction (.response response)).Regular := by
  rcases names.token with ⟨token, handed, four⟩
  have hFew := names.few
  have hFew6 := names.few6
  rw [show neighbourCount = 8 from rfl] at hFew hFew6
  have hToken : ∀ other ∈ response.token, other.length ≤ 2147483647 := by
    intro other same
    rw [handed] at same
    rcases Option.some.inj same with rfl
    omega
  have hTransaction : transaction.length ≤ 2147483647 := by omega
  exact ⟨hTransaction, Message.version_ofBody _ _, names.nodes, names.nodes6, by omega, by omega,
    hToken⟩

theorem length_encode (names : n.Names now family infoHash response) (transaction : Bytes) :
    (Message.ofBody transaction (.response response)).encode.length =
      Message.answerSize family transaction.length response.nodes.length response.nodes6.length
        response.values.length := by
  rcases names.token with ⟨token, handed, four⟩
  refine Message.length_encode_answer transaction handed four names.nodes names.nodes6 ?_
  rw [names.values]
  exact fun peer named => namedPeers_of_mem named

/-- What fits with the most contacts of either family, fits. -/
theorem answerSize_le (names : n.Names now family infoHash response) {transaction peers : Nat}
    (short : transaction ≤ 2) (few : response.values.length ≤ peers) :
    Message.answerSize family transaction response.nodes.length response.nodes6.length
      response.values.length ≤ Message.answerSize family 2 8 8 peers :=
  Message.answerSize_mono family short names.few names.few6 few

/-- Sixty-eight peers of the sixth version take more room than a datagram has. -/
theorem too_long (names : n.Names now family infoHash response) (six : family = .v6)
    (many : 68 ≤ response.values.length) (transaction : Bytes) :
    maxDatagramLength < (Message.ofBody transaction (.response response)).encode.length := by
  have hSize : Message.answerSize .v6 0 0 0 68 ≤ _ :=
    Message.answerSize_mono .v6 (Nat.zero_le transaction.length)
      (Nat.zero_le response.nodes.length) (Nat.zero_le response.nodes6.length) many
  rw [names.length_encode, six]
  exact Nat.lt_of_lt_of_le (by decide +kernel) hSize

end Names

/-! ## One query after another -/

/-- Nothing comes of a query but that it is handled. -/
theorem step_of_query {message : Message} {query : Query} (arrives : message.Arrives)
    (about : message.body = .query query) (answers : n.readOnly = false)
    (running : n.running = true) (completed : n.completed = []) :
    let after := n.step env (.datagram sender message.encode)
    after = { n with outbox := [] }.handleMessage env sender message ∧
      after.readOnly = false ∧ after.running = true ∧ after.completed = [] := by
  have hEvent : ({ n with outbox := [] } : LocalNode).handleEvent env
      (.datagram sender message.encode) =
        ({ n with outbox := [] } : LocalNode).handleMessage env sender message := by
    rw [handleEvent, handleDatagram, arrives]
  have hHandled : ({ n with outbox := [] } : LocalNode).handleMessage env sender message =
      ({ n with outbox := [] } : LocalNode).handleQuery env sender message query := by
    rw [handleMessage, about]
    exact if_neg (Bool.eq_false_iff.mp answers)
  have hKept : (({ n with outbox := [] } : LocalNode).handleMessage env sender message).readOnly =
        false ∧
      (({ n with outbox := [] } : LocalNode).handleMessage env sender message).running = true ∧
      (({ n with outbox := [] } : LocalNode).handleMessage env sender message).completed = [] := by
    rcases handleQuery_cases env { n with outbox := [] } sender message query with
      ⟨table, m, body, -, ⟨tokens, store, notices, rfl⟩, handled⟩
    rw [hHandled, handled]
    exact ⟨answers, running, completed⟩
  have hStep : n.step env (.datagram sender message.encode) =
      ({ n with outbox := [] } : LocalNode).handleMessage env sender message := by
    rw [step]
    dsimp only
    rw [hEvent, if_pos running, wrapUp_of_completed hKept.2.2, if_pos hKept.2.1]
  dsimp only
  rw [hStep]
  exact ⟨rfl, hKept⟩

/-- A node that goes through nothing but queries handles one after another. -/
theorem run_queries (env : Surroundings) (sender : Address) {messages : List Message}
    (queries : ∀ message ∈ messages, message.Arrives ∧ ∃ query, message.body = .query query)
    (answers : n.readOnly = false) (running : n.running = true) (completed : n.completed = []) :
    let after := (n.run (messages.map fun message => (env, .datagram sender message.encode))).2
    after = messages.foldl
        (fun n message => { n with outbox := [] }.handleMessage env sender message) n ∧
      after.readOnly = false ∧ after.running = true ∧ after.completed = [] := by
  induction messages using List.reverseRecOn with
  | nil => exact ⟨rfl, answers, running, completed⟩
  | append_singleton past message ih =>
    rcases queries message (by simp) with ⟨arrives, query, about⟩
    rcases ih fun other among => queries other (List.mem_append_left _ among) with
      ⟨same, hAnswers, hRunning, hCompleted⟩
    have hStep := @step_of_query _ env sender message query arrives about hAnswers hRunning
      hCompleted
    rw [List.map_append, List.map_singleton, run_append, List.foldl_append, ← same]
    exact hStep

/-! ## Responses that arrive -/

/-- A node that speaks the sixth version and asks for no tokens. -/
def trusting : LocalNode :=
  start { id := .zero, settings := { validateTokens := false } } ⟨.v6 2, 2⟩ 0 default ⟨0⟩

def atOnce : Surroundings :=
  (.reliable 0)

/-- The announcement of a peer at the port after the given one. -/
def announcement (port : Nat) : Message :=
  .ofBody [0x61, 0x61] (.query (.announcePeer ⟨1⟩ .zero (some (UInt16.ofNat (port + 1))) []))

/-- One host announces a peer at each of sixty-eight ports. -/
def crowding : List (Surroundings × Event) :=
  ((List.range 68).map announcement).map fun message =>
    (atOnce, .datagram ⟨.v6 1, 1⟩ message.encode)

/-- The search for the peers under the same key. -/
def search : Message :=
  .ofBody [0x61, 0x61] (.query (.getPeers ⟨1⟩ .zero none))

theorem arrives_announcement {port : Nat} (few : port < 68) :
    (announcement port).Arrives ∧ ∃ query, (announcement port).body = .query query := by
  have hPort : ∀ port < 68, UInt16.ofNat (port + 1) ≠ 0 := by decide
  have hLength : ∀ port < 68, (announcement port).encode.length ≤ maxDatagramLength := by
    decide +kernel
  have hNonzero : some (UInt16.ofNat (port + 1)) ≠ some 0 :=
    fun same => hPort port few (Option.some.inj same)
  have hTransaction : ([0x61, 0x61] : Bytes).length ≤ 2147483647 := by decide
  have hRegular : (announcement port).Regular :=
    ⟨hTransaction, Message.version_ofBody _ _, hNonzero, Nat.zero_le _⟩
  exact ⟨(Message.arrives_iff hRegular).mpr (hLength port few), _, rfl⟩

theorem run_crowding :
    (trusting.run crowding).2 = ((List.range 68).map announcement).foldl
      (fun n message => { n with outbox := [] }.handleMessage atOnce ⟨.v6 1, 1⟩ message)
      trusting := by
  refine (run_queries atOnce _ (fun message among => ?_) rfl rfl rfl).1
  rcases List.mem_map.mp among with ⟨port, few, rfl⟩
  exact arrives_announcement (List.mem_range.mp few)

theorem crowded :
    let n := (trusting.run crowding).2
    n.running = true ∧ n.readOnly = false ∧ (n.namedPeers 0 .v6 .zero).length = 68 := by
  rw [run_crowding]
  decide +kernel

/-- A node that is asked for peers names those of the family of the one that asks, up to a hundred.
The response arrives if it is no longer than a datagram may be, which follows from the numbers of
what it lists.  It always does if the peers have addresses of the fourth version, and if there are
up to forty-two of the sixth; with sixty-eight or more of these it never does. -/
theorem arrives_of_getPeers (env : Surroundings) (n : LocalNode) (sender : Address) (data : Bytes)
    (message : Message) (id : NodeId) (infoHash : InfoHash) (want : Option Want)
    (running : n.running = true) (answers : n.readOnly = false)
    (read : Message.decode (data.take maxDatagramLength) = .ok message)
    (about : message.body = .query (.getPeers id infoHash want))
    (short : message.transaction.length ≤ 2) :
    ∃ response delivered,
      let reply := Message.ofBody message.transaction (.response response)
      (n.step env (.datagram sender data)).replies = [.sent sender reply delivered] ∧
      n.Names env.now sender.family infoHash response ∧
      reply.encode.length = Message.answerSize sender.family message.transaction.length
        response.nodes.length response.nodes6.length response.values.length ∧
      (reply.Arrives ↔ reply.encode.length ≤ maxDatagramLength) ∧
      (sender.family = .v4 → reply.Arrives) ∧
      (sender.family = .v6 → response.values.length ≤ 42 → reply.Arrives) ∧
      (sender.family = .v6 → 68 ≤ response.values.length → ¬ reply.Arrives) := by
  rcases @replies_getPeers n env sender data message id infoHash want running answers read about
    with ⟨response, delivered, replied, hNames⟩
  have hLength := hNames.length_encode message.transaction
  have hArrives := Message.arrives_iff (hNames.regular short)
  refine ⟨response, delivered, replied, hNames, hLength, hArrives, ?_, ?_, ?_⟩
  · intro family
    have hFew : response.values.length ≤ maxValues := by
      rw [hNames.values]
      exact List.length_take_le _ _
    have hSize := hNames.answerSize_le short hFew
    rw [hArrives, hLength]
    rw [family] at hSize ⊢
    exact Nat.le_trans hSize (by decide +kernel)
  · intro family few
    have hSize := hNames.answerSize_le short few
    rw [hArrives, hLength]
    rw [family] at hSize ⊢
    exact Nat.le_trans hSize (by decide +kernel)
  · intro family many
    rw [hArrives]
    exact Nat.not_le_of_lt (hNames.too_long family many message.transaction)

theorem arrives_of_crowded :
    let n := (trusting.run crowding).2
    n.running = true ∧ n.readOnly = false ∧
      Message.decode (search.encode.take maxDatagramLength) = .ok search ∧
      search.body = .query (.getPeers ⟨1⟩ .zero none) ∧ search.transaction.length ≤ 2 ∧
      ∃ response delivered,
        let reply := Message.ofBody search.transaction (.response response)
        (n.step atOnce (.datagram ⟨.v6 1, 1⟩ search.encode)).replies =
          [.sent (Destination.ofAddress ⟨.v6 1, 1⟩) reply delivered] ∧
        n.Names 0 .v6 .zero response ∧
        reply.encode.length = Message.answerSize .v6 2 response.nodes.length
          response.nodes6.length response.values.length ∧
        (reply.Arrives ↔ reply.encode.length ≤ maxDatagramLength) ∧
        (Family.v6 = .v4 → reply.Arrives) ∧
        (Family.v6 = .v6 → response.values.length ≤ 42 → reply.Arrives) ∧
        (Family.v6 = .v6 → 68 ≤ response.values.length → ¬ reply.Arrives) := by
  rcases crowded with ⟨running, answers, -⟩
  have hRead : Message.decode (search.encode.take maxDatagramLength) = .ok search := by
    decide +kernel
  exact ⟨running, answers, hRead, rfl, by decide, arrives_of_getPeers atOnce _ ⟨.v6 1, 1⟩
    search.encode search ⟨1⟩ .zero none running answers hRead rfl (by decide)⟩

theorem lost_response :
    ∃ response delivered,
      ((trusting.run crowding).2.step atOnce (.datagram ⟨.v6 1, 1⟩ search.encode)).replies =
        [.sent (Destination.ofAddress ⟨.v6 1, 1⟩)
          (.ofBody search.transaction (.response response)) delivered] ∧
      search.transaction.length = 2 ∧
      maxDatagramLength <
        (Message.ofBody search.transaction (.response response)).encode.length := by
  rcases crowded with ⟨running, answers, many⟩
  have hRead : Message.decode (search.encode.take maxDatagramLength) = .ok search := by
    decide +kernel
  rcases @replies_getPeers (trusting.run crowding).2 atOnce ⟨.v6 1, 1⟩ search.encode search ⟨1⟩
    .zero none running answers hRead rfl with ⟨response, delivered, replied, names⟩
  have hMany : response.values.length = 68 := by
    rw [names.values]
    exact many
  exact ⟨response, delivered, replied, rfl,
    names.too_long rfl (Nat.le_of_eq hMany.symm) search.transaction⟩

end LocalNode
end Kademlia
