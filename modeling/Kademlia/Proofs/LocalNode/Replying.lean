import Kademlia.Proofs.LocalNode.Quiet
import Kademlia.Proofs.LocalNode.Rejecting
import Kademlia.Proofs.Message.Queries

namespace Kademlia
namespace LocalNode

/-!
# One reply to each query

A node that is not read only replies to every query once, whatever the method and the arguments, and
whatever its own state: with a response or a refusal to the sender, under the transaction of the
query.  Nothing else makes it reply.
-/

variable {n : LocalNode} {env : Surroundings} {sender : Address} {data : Bytes}

/-! ## Answers -/

theorem IsAnswer.known {message : Message} (answers : IsAnswer message) (kind : Bytes)
    (payload : Bencode.Dictionary) : message.body ≠ .other kind payload := by
  rcases answers with ⟨response, about⟩ | ⟨error, about⟩
  · rw [about]
    exact nofun
  · rw [about]
    exact nofun

theorem isReply_of_isAnswer {message : Message} (answers : IsAnswer message)
    (destination : Destination) (delivered : Bool) :
    (Effect.sent destination message delivered).isReply = true := by
  apply decide_eq_true
  rw [Message.writtenKind_eq answers.known]
  rcases answers with ⟨response, about⟩ | ⟨error, about⟩
  · left
    rw [about]
    rfl
  · right
    rw [about]
    rfl

theorem writtenTransaction_of_isAnswer {message : Message} (answers : IsAnswer message) :
    message.writtenTransaction = some message.transaction :=
  Message.writtenTransaction_eq answers.known

/-- An announcement is accepted or refused, and either is said in the reply alone. -/
theorem replies_answerAnnounce (n : LocalNode) (transaction : Bytes) (infoHash : InfoHash)
    (port : Option UInt16) (token : Bytes) :
    IsAnswer (.ofBody transaction (n.answerAnnounce env sender infoHash port token).1) ∧
      (n.answerAnnounce env sender infoHash port token).2.replies = n.replies := by
  unfold answerAnnounce
  split
  next valid checked same =>
    have hChecked : checked.replies = n.replies := by
      split at same
      · cases same
        rfl
      · cases same
        rfl
    rw [← hChecked]
    split
    · exact ⟨.inr ⟨_, rfl⟩, rfl⟩
    · dsimp only
      split
      · exact ⟨.inr ⟨_, rfl⟩, rfl⟩
      · refine ⟨.inl ⟨_, rfl⟩, ?_⟩
        exact overlooks_replies.emit_if _ _ rfl
      · refine ⟨.inl ⟨_, rfl⟩, ?_⟩
        exact overlooks_replies.emit_if _ _ rfl

theorem replies_answer (n : LocalNode) (transaction : Bytes) (compatible : Bool) (query : Query) :
    IsAnswer (.ofBody transaction (n.answer env sender compatible query).1) ∧
      (n.answer env sender compatible query).2.replies = n.replies := by
  cases query with
  | ping id => exact ⟨.inl ⟨_, rfl⟩, replies_notify ..⟩
  | findNode id target want => exact ⟨.inl ⟨_, rfl⟩, rfl⟩
  | getPeers id infoHash want => exact ⟨.inl ⟨_, rfl⟩, rfl⟩
  | announcePeer id infoHash port token => exact replies_answerAnnounce ..
  | other method id => exact ⟨.inr ⟨_, rfl⟩, rfl⟩

/-- A node has replied once more, to the sender of a query and under its transaction. -/
def RepliesOnce (sender : Address) (transaction : Bytes) (n m : LocalNode) : Prop :=
  ∃ message delivered, m.replies = n.replies ++ [.sent sender message delivered] ∧
    message.writtenTransaction = some transaction

theorem replies_send {message : Message} (answers : IsAnswer message) (n : LocalNode) :
    (n.send env sender message).2.replies =
      n.replies ++ [.sent sender message (n.send env sender message).1] := by
  unfold replies send emit
  dsimp only
  rw [List.filter_append, List.filter_singleton, isReply_of_isAnswer answers]
  rfl

theorem repliesOnce_send {message : Message} (answers : IsAnswer message) (n : LocalNode) :
    RepliesOnce sender message.transaction n (n.send env sender message).2 :=
  ⟨message, _, replies_send answers n, writtenTransaction_of_isAnswer answers⟩

theorem RepliesOnce.of_replies {transaction : Bytes} {k m : LocalNode}
    (once : RepliesOnce sender transaction k m) (same : k.replies = n.replies) :
    RepliesOnce sender transaction n m := by
  rcases once with ⟨message, delivered, more, written⟩
  rw [same] at more
  exact ⟨message, delivered, more, written⟩

theorem repliesOnce_handleQuery (n : LocalNode) (message : Message) (query : Query) :
    RepliesOnce sender message.transaction n (n.handleQuery env sender message query) := by
  have hAnswered : ∀ m : LocalNode, m.replies = n.replies →
      let answered := m.answer env sender (message.isSimilarTo Message.ownVersion) query
      RepliesOnce sender message.transaction n
        (answered.2.send env sender (.ofBody message.transaction answered.1)).2 := by
    intro m same
    rcases @replies_answer env sender m message.transaction
      (message.isSimilarTo Message.ownVersion) query with ⟨answers, kept⟩
    exact (repliesOnce_send answers _).of_replies (kept.trans same)
  unfold handleQuery
  apply hAnswered
  split
  · split
    · rfl
    · rfl
  · rfl

theorem repliesOnce_handleMalformed (n : LocalNode) (transaction : Bytes) (key : Key) :
    RepliesOnce sender transaction n (n.handleMalformed env sender transaction key) :=
  repliesOnce_send (.inr ⟨_, rfl⟩) n

/-! ## Datagrams -/

theorem replies_handleMessage {message : Message}
    (passed : n.readOnly = true ∨ ∀ query, message.body ≠ .query query) :
    (n.handleMessage env sender message).replies = n.replies := by
  have hTaken := takeTransaction_cases n sender message.transaction
  unfold handleMessage
  generalize n.takeTransaction sender message.transaction = taken at hTaken ⊢
  split
  next query about =>
    rcases passed with silent | another
    · rw [if_pos silent]
    · exact absurd about (another query)
  next =>
    cases hTaken with
    | unknown => rfl
    | elsewhere => rfl
    | own =>
      refine detached_replies.handleResponse ?_ ..
      exact overlooks_replies.reportPeer (fun _ _ => rfl) fun _ _ => rfl
  next =>
    cases hTaken with
    | unknown => rfl
    | elsewhere => rfl
    | own => exact detached_replies.indifferent.queryFailed ..
  next => rfl

/-- A node that is read only replies to nothing. -/
theorem replies_of_readOnly (readOnly : n.readOnly = true) (sender : Address) (data : Bytes) :
    (n.handleDatagram env sender data).replies = n.replies := by
  unfold handleDatagram
  split
  · exact replies_handleMessage (.inl readOnly)
  · rw [if_pos readOnly]
  · rfl

theorem replies_of_noQuery (short : data.length ≤ maxDatagramLength)
    (none : ∀ transaction, ¬ IsQuery data transaction) :
    (n.handleDatagram env sender data).replies = n.replies := by
  rcases Message.noQuery_decode none with ⟨faultless, another⟩
  cases read : Message.decode data with
  | ok message =>
    rw [handleDatagram_of_ok short read]
    exact replies_handleMessage (.inr fun query => another message query read)
  | error error =>
    rw [handleDatagram_of_unreadable short read]
    intro transaction key same
    exact faultless transaction key (read.trans (congrArg Except.error same))

theorem repliesOnce_of_isQuery {transaction : Bytes} (short : data.length ≤ maxDatagramLength)
    (answers : n.readOnly = false) (isQuery : IsQuery data transaction) :
    RepliesOnce sender transaction n (n.handleDatagram env sender data) := by
  have hAnswers : ¬ n.readOnly = true := Bool.eq_false_iff.mp answers
  rcases Message.decode_of_isQuery isQuery with
    ⟨message, query, read, about, rfl⟩ | ⟨key, refused⟩
  · rw [handleDatagram_of_ok short read, handleMessage, about]
    dsimp only
    rw [if_neg hAnswers]
    exact repliesOnce_handleQuery n message query
  · rw [handleDatagram_of_malformed short refused, if_neg hAnswers]
    exact repliesOnce_handleMalformed n transaction key

/-! ## Events -/

/-- Only the event itself can make a node reply, and not what is wrapped up after it. -/
theorem replies_step (running : n.running = true) (event : Event) :
    (n.step env event).replies = ({ n with outbox := [] }.handleEvent env event).replies :=
  detached_replies.step running event

theorem replies_of_stopped (stopped : n.running = false) (event : Event) :
    (n.step env event).replies = [] := by
  unfold step
  dsimp only
  rw [stopped]
  rfl

theorem replies_handleEvent (n : LocalNode) (event : Event)
    (passed : ∀ sender data, event = .datagram sender data →
      (n.handleDatagram env sender data).replies = n.replies) :
    (n.handleEvent env event).replies = n.replies := by
  by_cases brings : ∃ sender data, event = .datagram sender data
  · rcases brings with ⟨sender, data, rfl⟩
    exact passed sender data rfl
  · have hOther : ∀ sender data, event ≠ .datagram sender data := fun sender data same =>
      brings ⟨sender, data, same⟩
    rcases detached_replies.handleEvent n hOther with kept | expired
    · exact kept
    · exact expired

/-- A node that was sent a query replies once, and a node that was not sent one does not reply. -/
theorem replies_of_step (env : Surroundings) (n : LocalNode) :
    (∀ sender data transaction, data.length ≤ maxDatagramLength → n.running = true →
      n.readOnly = false → IsQuery data transaction →
        ∃ message delivered,
          (n.step env (.datagram sender data)).replies = [.sent sender message delivered] ∧
            message.writtenTransaction = some transaction) ∧
    (∀ event, (∀ sender data, event = .datagram sender data →
      data.length ≤ maxDatagramLength ∧ ∀ transaction, ¬ IsQuery data transaction) →
        (n.step env event).replies = []) ∧
    (n.readOnly = true → ∀ event, (n.step env event).replies = []) := by
  have hPassed : ∀ event, (∀ sender data, event = .datagram sender data →
      ({ n with outbox := [] }.handleDatagram env sender data).replies = []) →
        (n.step env event).replies = [] := by
    intro event passed
    cases running : n.running with
    | true => exact (replies_step running event).trans (replies_handleEvent _ event passed)
    | false => exact replies_of_stopped running event
  refine ⟨?_, ?_, ?_⟩
  · intro sender data transaction short running answers isQuery
    have hOnce : RepliesOnce sender transaction { n with outbox := [] }
        ({ n with outbox := [] }.handleDatagram env sender data) :=
      repliesOnce_of_isQuery short answers isQuery
    rcases hOnce with ⟨message, delivered, replied, written⟩
    rw [replies_step running, handleEvent]
    exact ⟨message, delivered, replied, written⟩
  · intro event others
    refine hPassed event fun sender data same => ?_
    rcases others sender data same with ⟨short, none⟩
    exact replies_of_noQuery short none
  · intro readOnly event
    have hReadOnly : ({ n with outbox := [] } : LocalNode).readOnly = true := readOnly
    exact hPassed event fun sender data _ => replies_of_readOnly hReadOnly sender data

/-- A query that this program does not know, without any argument. -/
def strangeQuery : Message :=
  .ofBody [0x61, 0x61] (.query (.other (Bytes.ofString "vote") none))

theorem replies_to_strangeQuery :
    strangeQuery.encode.length ≤ maxDatagramLength ∧ pinging.running = true ∧
      pinging.readOnly = false ∧ IsQuery strangeQuery.encode [0x61, 0x61] ∧
      (∃ message delivered,
        (pinging.step (.reliable 1)
          (.datagram ⟨.v4 3, 3⟩ strangeQuery.encode)).replies =
            [.sent (Destination.ofAddress ⟨.v4 3, 3⟩) message delivered] ∧
          message.writtenTransaction = some [0x61, 0x61]) ∧
      (pinging.step (.reliable 1) .wake).replies = [] ∧
      ({ pinging with readOnly := true }.step (.reliable 1)
        (.datagram ⟨.v4 3, 3⟩ strangeQuery.encode)).replies = [] := by
  have hShort : strangeQuery.encode.length ≤ maxDatagramLength := by decide +kernel
  have hRunning : pinging.running = true := by decide +kernel
  have hAnswers : pinging.readOnly = false := by decide +kernel
  have hStrange : ∀ known : Method, Bytes.ofString "vote" ≠ known.bytes := by
    intro known
    cases known <;> decide +kernel
  have hRegular : strangeQuery.Regular := ⟨by decide, by decide +kernel, hStrange, by decide +kernel⟩
  have hQuery : IsQuery strangeQuery.encode [0x61, 0x61] := Message.isQuery_encode hRegular rfl
  rcases replies_of_step (.reliable 1) pinging with ⟨hOnce, hNone, -⟩
  exact ⟨hShort, hRunning, hAnswers, hQuery, hOnce _ _ _ hShort hRunning hAnswers hQuery,
    hNone .wake nofun, (replies_of_step _ { pinging with readOnly := true }).2.2 rfl _⟩

end LocalNode
end Kademlia
