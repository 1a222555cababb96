import Kademlia.LocalNode.Step
import Kademlia.Proofs.Transactions

namespace Kademlia
namespace LocalNode

/-!
# Datagrams that leave no trace

Anybody can send a node anything.  What it cannot read, what answers none of its queries and what it
has chosen not to answer (`Ignored`) changes nothing: the node is the same as before, except that it
refuses a query with malformed arguments.  A query that somebody else tries to answer goes on to wait
under its number, and for its time-out; it is only taken out and put back.
-/

variable {n m : LocalNode} {env : Surroundings} {sender : Address} {data : Bytes}

/-! ## Looking for a query -/

/-- What can come of looking for the query that an answer belongs to. -/
inductive Taken (n : LocalNode) (sender : Address) (transaction : Bytes) :
    Option Transaction × LocalNode → Prop
  | unknown : Taken n sender transaction (none, n)
  | elsewhere {t : Transaction} : n.transactions.get? t.id = some t →
    t.destination.address.ip ≠ sender.ip →
    Taken n sender transaction
      (none, { n with transactions := (n.transactions.erase t.id).record t })
  | own {t : Transaction} : n.transactions.get? t.id = some t →
    t.destination.address.ip = sender.ip → TransactionId.ofBytes? transaction = some t.id →
    Taken n sender transaction (some t, { n with
      transactions := n.transactions.erase t.id
      timer := (n.timer.cancel t.id).2 })

theorem takeTransaction_cases (n : LocalNode) (sender : Address) (transaction : Bytes) :
    Taken n sender transaction (n.takeTransaction sender transaction) := by
  unfold LocalNode.takeTransaction Transactions.take
  split
  next => exact .unknown
  next id number =>
    cases found : n.transactions.get? id with
    | none =>
      have hSame : n.transactions.erase id = n.transactions := by
        unfold Transactions.erase
        rw [Transactions.filter_unknown found]
      dsimp only
      rw [hSame]
      exact .unknown
    | some t =>
      rcases Transactions.mem_of_get? found with ⟨-, rfl⟩
      dsimp only
      split
      next own => exact .own found own number
      next elsewhere => exact .elsewhere found elsewhere

/-! ## No trace -/

/-- A message that is meant for a node that has sent a query. -/
def IsAnswer (message : Message) : Prop :=
  (∃ response, message.body = .response response) ∨ ∃ error, message.body = .error error

/-- A datagram that a node has no use for. -/
inductive Ignored (n : LocalNode) (sender : Address) (data : Bytes) : Prop
  | unreadable {error : MessageError} (refused : Message.decode data = .error error)
  | unfamiliar {message : Message} {kind : Bytes} {payload : Bencode.Dictionary}
      (read : Message.decode data = .ok message) (about : message.body = .other kind payload)
  /-- The transaction of an answer is not of this program's making. -/
  | foreign {message : Message} (read : Message.decode data = .ok message)
      (answers : IsAnswer message) (length : message.transaction.length ≠ 2)
  /-- Nothing waits for the answer, or nothing does any more. -/
  | late {message : Message} {id : TransactionId} (read : Message.decode data = .ok message)
      (answers : IsAnswer message) (number : message.transaction = id.toBytes)
      (unknown : n.transactions.get? id = none)
  /-- The answer does not come from the host that was asked. -/
  | elsewhere {message : Message} {id : TransactionId} {t : Transaction}
      (read : Message.decode data = .ok message) (answers : IsAnswer message)
      (number : message.transaction = id.toBytes) (waits : n.transactions.get? id = some t)
      (another : t.destination.address.ip ≠ sender.ip)
  | unanswered {message : Message} {query : Query} (read : Message.decode data = .ok message)
      (about : message.body = .query query) (readOnly : n.readOnly = true)

/-- The nodes are the same, but for what they have sent and the order in which queries wait. -/
structure Untouched (n m : LocalNode) : Prop where
  same : m = { n with transactions := m.transactions, outbox := m.outbox }
  nextId : m.transactions.nextId = n.transactions.nextId
  pending : ∀ id, m.transactions.get? id = n.transactions.get? id
  order : (n.transactions.pending.map (·.id)).Nodup →
    m.transactions.pending.Perm n.transactions.pending

/-- A datagram has left no trace in a node, and the most that it was answered with is a refusal. -/
structure Traceless (sender : Address) (data : Bytes) (n m : LocalNode) : Prop where
  untouched : Untouched n m
  refused : ∀ transaction key, n.readOnly = false →
    Message.decode data = .error (.invalidArgument transaction key) →
      ∃ delivered, m.outbox = n.outbox ++ [.sent sender (.ofBody transaction
        (.error ⟨203, "invalid argument: " ++ key.name⟩)) delivered]
  silent : (n.readOnly = true ∨
    ∀ transaction key, Message.decode data ≠ .error (.invalidArgument transaction key)) →
      m.outbox = n.outbox

theorem Untouched.refl (n : LocalNode) : Untouched n n :=
  ⟨rfl, rfl, fun _ => rfl, fun _ => .refl _⟩

theorem Untouched.putBack {t : Transaction} (found : n.transactions.get? t.id = some t) :
    Untouched n { n with transactions := (n.transactions.erase t.id).record t } :=
  ⟨rfl, rfl, Transactions.get?_record_erase found,
    fun distinct => Transactions.perm_record_erase distinct found⟩

theorem handleDatagram_of_ok {message : Message} (short : data.length ≤ maxDatagramLength)
    (read : Message.decode data = .ok message) :
    n.handleDatagram env sender data = n.handleMessage env sender message := by
  rw [handleDatagram, List.take_of_length_le short, read]

theorem handleDatagram_of_malformed {transaction : Bytes} {key : Key}
    (short : data.length ≤ maxDatagramLength)
    (refused : Message.decode data = .error (.invalidArgument transaction key)) :
    n.handleDatagram env sender data =
      if n.readOnly then n else n.handleMalformed env sender transaction key := by
  rw [handleDatagram, List.take_of_length_le short, refused]

theorem handleDatagram_of_unreadable {error : MessageError}
    (short : data.length ≤ maxDatagramLength) (refused : Message.decode data = .error error)
    (formed : ∀ transaction key, error ≠ .invalidArgument transaction key) :
    n.handleDatagram env sender data = n := by
  rw [handleDatagram, List.take_of_length_le short, refused]
  cases error with
  | invalidArgument transaction key => exact absurd rfl (formed transaction key)
  | encoding | missing | invalid => rfl

/-- An answer that belongs to no query of the sender is passed over. -/
theorem handleMessage_of_unasked {message : Message} (env : Surroundings) (answers : IsAnswer message)
    (unasked : ∀ id t, TransactionId.ofBytes? message.transaction = some id →
      n.transactions.get? id = some t → t.destination.address.ip ≠ sender.ip) :
    Untouched n (n.handleMessage env sender message) ∧
      (n.handleMessage env sender message).outbox = n.outbox := by
  have hTaken := takeTransaction_cases n sender message.transaction
  unfold handleMessage
  generalize n.takeTransaction sender message.transaction = taken at hTaken ⊢
  cases hTaken with
  | unknown =>
    rcases answers with ⟨response, about⟩ | ⟨error, about⟩
    · rw [about]
      exact ⟨.refl n, rfl⟩
    · rw [about]
      exact ⟨.refl n, rfl⟩
  | elsewhere found =>
    rcases answers with ⟨response, about⟩ | ⟨error, about⟩
    · rw [about]
      exact ⟨.putBack found, rfl⟩
    · rw [about]
      exact ⟨.putBack found, rfl⟩
  | own found own number => exact absurd own (unasked _ _ number found)

theorem traceless_of_eq (same : m = n) (formed : n.readOnly = true ∨
    ∀ transaction key, Message.decode data ≠ .error (.invalidArgument transaction key)) :
    Traceless sender data n m := by
  subst same
  refine ⟨.refl m, fun transaction key answers malformed => ?_, fun _ => rfl⟩
  rcases formed with silent | formed
  · rw [answers] at silent
    cases silent
  · exact absurd malformed (formed transaction key)

theorem traceless_of_unasked {message : Message} (short : data.length ≤ maxDatagramLength)
    (read : Message.decode data = .ok message) (answers : IsAnswer message)
    (unasked : ∀ id t, TransactionId.ofBytes? message.transaction = some id →
      n.transactions.get? id = some t → t.destination.address.ip ≠ sender.ip) :
    Traceless sender data n (n.handleDatagram env sender data) := by
  rw [handleDatagram_of_ok short read]
  rcases handleMessage_of_unasked env answers unasked with ⟨untouched, silent⟩
  refine ⟨untouched, fun transaction key _ malformed => ?_, fun _ => silent⟩
  rw [read] at malformed
  cases malformed

theorem traceless_of_unreadable {error : MessageError} (short : data.length ≤ maxDatagramLength)
    (refused : Message.decode data = .error error) :
    Traceless sender data n (n.handleDatagram env sender data) := by
  by_cases malformed : ∃ transaction key, error = .invalidArgument transaction key
  · rcases malformed with ⟨transaction, key, rfl⟩
    rw [handleDatagram_of_malformed short refused]
    cases readOnly : n.readOnly with
    | true => exact traceless_of_eq (if_pos rfl) (.inl readOnly)
    | false =>
      rw [if_neg Bool.false_ne_true]
      refine ⟨⟨rfl, rfl, fun _ => rfl, fun _ => .refl _⟩, ?_, ?_⟩
      · intro other name _ same
        rw [refused] at same
        cases same
        exact ⟨_, rfl⟩
      · rintro (silent | formed)
        · rw [readOnly] at silent
          cases silent
        · exact absurd refused (formed transaction key)
  · have hFormed : ∀ transaction key, error ≠ .invalidArgument transaction key :=
      fun transaction key same => malformed ⟨transaction, key, same⟩
    refine traceless_of_eq (handleDatagram_of_unreadable short refused hFormed) (.inr ?_)
    intro transaction key same
    rw [refused] at same
    exact hFormed transaction key (Except.error.inj same)

/-- What a node has no use for leaves no trace in it. -/
theorem Ignored.traceless (ignored : Ignored n sender data)
    (short : data.length ≤ maxDatagramLength) :
    Traceless sender data n (n.handleDatagram env sender data) := by
  have hFormed : ∀ {message : Message}, Message.decode data = .ok message →
      ∀ transaction key, Message.decode data ≠ .error (.invalidArgument transaction key) := by
    intro message read transaction key malformed
    rw [read] at malformed
    cases malformed
  cases ignored with
  | unreadable refused => exact traceless_of_unreadable short refused
  | unfamiliar read about =>
    refine traceless_of_eq ?_ (.inr (hFormed read))
    rw [handleDatagram_of_ok short read, handleMessage, about]
  | foreign read answers length =>
    refine traceless_of_unasked short read answers fun id t number => ?_
    rw [TransactionId.ofBytes?, if_neg length] at number
    cases number
  | late read answers number unknown =>
    refine traceless_of_unasked short read answers fun id t same found => ?_
    rw [number, TransactionId.ofBytes?_toBytes] at same
    rw [← Option.some.inj same, unknown] at found
    cases found
  | elsewhere read answers number waits another =>
    refine traceless_of_unasked short read answers fun id t same found => ?_
    rw [number, TransactionId.ofBytes?_toBytes] at same
    rw [← Option.some.inj same, waits] at found
    rw [← Option.some.inj found]
    exact another
  | unanswered read about readOnly =>
    refine traceless_of_eq ?_ (.inl readOnly)
    rw [handleDatagram_of_ok short read, handleMessage, about]
    exact if_pos readOnly

/-! ## As an event -/

theorem Ignored.congr (ignored : Ignored n sender data) (transactions : m.transactions = n.transactions)
    (readOnly : m.readOnly = n.readOnly) : Ignored m sender data := by
  cases ignored with
  | unreadable refused => exact .unreadable refused
  | unfamiliar read about => exact .unfamiliar read about
  | foreign read answers length => exact .foreign read answers length
  | late read answers number unknown => exact .late read answers number (transactions ▸ unknown)
  | elsewhere read answers number waits another =>
    exact .elsewhere read answers number (transactions ▸ waits) another
  | unanswered read about silent => exact .unanswered read about (readOnly.trans silent)

/-- A node that has nothing to wrap up is left as it is. -/
theorem wrapUp_of_completed (completed : n.completed = []) : n.wrapUp env = n := by
  unfold wrapUp
  cases n.completed.length + n.queued.length with
  | zero => rfl
  | succ count => rw [wrapUpSome, completed]

/-- Nothing comes of the event but what the datagram does at once. -/
theorem step_datagram_of_untouched (running : n.running = true) (completed : n.completed = [])
    (untouched : Untouched { n with outbox := [] }
      ({ n with outbox := [] }.handleDatagram env sender data)) :
    n.step env (.datagram sender data) =
      { n with outbox := [] }.handleDatagram env sender data := by
  unfold step handleEvent
  dsimp only
  generalize ({ n with outbox := [] } : LocalNode).handleDatagram env sender data = m
    at untouched ⊢
  have hRunning : m.running = true := by
    rw [untouched.same]
    exact running
  have hCompleted : m.completed = [] := by
    rw [untouched.same]
    exact completed
  rw [if_pos running, wrapUp_of_completed hCompleted, if_pos hRunning]

/-- What a node has no use for leaves no trace in it, whatever the state of the node; and nothing
else comes of it between two events. -/
theorem traceless_of_ignored (env : Surroundings) (n : LocalNode) (sender : Address) (data : Bytes)
    (short : data.length ≤ maxDatagramLength) (ignored : Ignored n sender data) :
    Traceless sender data n (n.handleDatagram env sender data) ∧
      (n.running = true → n.completed = [] →
        Traceless sender data { n with outbox := [] } (n.step env (.datagram sender data))) := by
  refine ⟨ignored.traceless short, fun running completed => ?_⟩
  have hIgnored : Ignored { n with outbox := [] } sender data := ignored.congr rfl rfl
  have hStart := @Ignored.traceless _ env _ _ hIgnored short
  rw [step_datagram_of_untouched running completed hStart.untouched]
  exact hStart

/-- A node that has pinged another. -/
def pinging : LocalNode :=
  (start { id := .zero } ⟨.v4 2, 2⟩ 0 default ⟨0⟩).step (.reliable 0)
    (.command (.ping ⟨.v4 1, 1⟩))

/-- A refusal under the number of the ping. -/
def refusal : Bytes :=
  (Message.ofBody (TransactionId.mk 0).toBytes (.error ⟨201, "no"⟩)).encode

theorem traceless_while_pinging :
    refusal.length ≤ maxDatagramLength ∧ pinging.transactions.size = 1 ∧
      Ignored pinging ⟨.v4 3, 3⟩ refusal ∧ pinging.running = true ∧ pinging.completed = [] ∧
      Traceless ⟨.v4 3, 3⟩ refusal pinging
        (pinging.handleDatagram (.reliable 1) ⟨.v4 3, 3⟩ refusal) ∧
      Traceless ⟨.v4 3, 3⟩ refusal { pinging with outbox := [] }
        (pinging.step (.reliable 1) (.datagram ⟨.v4 3, 3⟩ refusal)) := by
  have hShort : refusal.length ≤ maxDatagramLength := by decide +kernel
  have hRead : Message.decode refusal =
      .ok (.ofBody (TransactionId.mk 0).toBytes (.error ⟨201, "no"⟩)) := by
    have hFound : (Message.decode refusal).toOption =
        some (.ofBody (TransactionId.mk 0).toBytes (.error ⟨201, "no"⟩)) := by decide +kernel
    generalize Message.decode refusal = read at hFound ⊢
    cases read with
    | error error => cases hFound
    | ok message => rw [Option.some.inj hFound]
  have hWaits : pinging.transactions.get? ⟨0⟩ =
      some ⟨⟨0⟩, .ping .zero, ⟨⟨.v4 1, 1⟩, 0⟩, none, .ping, 0⟩ := by decide +kernel
  have hIgnored : Ignored pinging ⟨.v4 3, 3⟩ refusal :=
    .elsewhere hRead (.inr ⟨_, rfl⟩) rfl hWaits (by decide)
  have hRunning : pinging.running = true := by decide +kernel
  have hCompleted : pinging.completed = [] := by decide +kernel
  rcases traceless_of_ignored (.reliable 1) pinging ⟨.v4 3, 3⟩ refusal hShort
    hIgnored with ⟨handled, stepped⟩
  exact ⟨hShort, by decide +kernel, hIgnored, hRunning, hCompleted, handled,
    stepped hRunning hCompleted⟩

end LocalNode
end Kademlia
