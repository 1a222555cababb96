import Kademlia.Proofs.Message.RoundTrip

namespace Kademlia

/-!
# Which datagrams are queries

A datagram is a query if it is a dictionary of that kind with a transaction, a method and some
arguments, whatever these are.  Reading it either gives the query or names the argument at fault, and
both come with the transaction.  No other datagram is read as a query, and of no other one the
arguments are at fault.
-/

open Bencode (Dictionary Value)

/-- A datagram that is a query with the given transaction. -/
def IsQuery (data transaction : Bytes) : Prop :=
  ∃ d, Bencode.decodeDictionary data = .ok d ∧
    d.getBytes? Key.transaction.bytes = some transaction ∧
    d.getBytes? Key.kind.bytes = some Key.method.bytes ∧
    (∃ method, d.getBytes? Key.method.bytes = some method) ∧
    ∃ arguments, d.getDict? Key.arguments.bytes = some arguments

namespace Message

variable {data transaction kind : Bytes} {d : Dictionary}

/-- The arguments are not at fault. -/
def Faultless {α : Type} (result : Except MessageError α) : Prop :=
  ∀ transaction key, result ≠ .error (.invalidArgument transaction key)

section Faultless

variable {α β : Type} {result : Except MessageError α}

theorem faultless_ok (a : α) : Faultless (.ok a) := nofun

theorem Faultless.bind {f : α → Except MessageError β} (faultless : Faultless result)
    (rest : ∀ a, result = .ok a → Faultless (f a)) : Faultless (result >>= f) := by
  cases result with
  | error error =>
    intro transaction key same
    exact faultless transaction key (congrArg Except.error (Except.error.inj same))
  | ok a => exact rest a rfl

theorem Faultless.map (faultless : Faultless result) (f : α → β) : Faultless (f <$> result) := by
  cases result with
  | error error =>
    intro transaction key same
    exact faultless transaction key (congrArg Except.error (Except.error.inj same))
  | ok a => exact faultless_ok (f a)

theorem faultless_readField (d : Dictionary) (key : Key) (view : Value → Option α) :
    Faultless (readField d key view) := by
  unfold readField
  split
  · exact nofun
  · split
    · exact nofun
    · exact nofun

theorem faultless_readOptional (d : Dictionary) (key : Key) (view : Value → Option α) :
    Faultless (readOptional d key view) := by
  unfold readOptional
  split
  · exact nofun
  · split
    · exact nofun
    · exact nofun

end Faultless

theorem faultless_readResponse (reply : Dictionary) : Faultless (readResponse reply) := by
  unfold readResponse
  refine (faultless_readField _ _ _).bind fun sender _ => ?_
  refine (faultless_readOptional _ _ _).bind fun nodes _ => ?_
  refine (faultless_readOptional _ _ _).bind fun nodes6 _ => ?_
  refine (faultless_readOptional _ _ _).bind fun values _ => ?_
  exact (faultless_readOptional _ _ _).bind fun token _ => faultless_ok _

theorem readField_eq_ok_iff {α : Type} {key : Key} {view : Value → Option α} {a : α} :
    readField d key view = .ok a ↔ d.get? key.bytes >>= view = some a := by
  unfold readField
  cases d.get? key.bytes with
  | none => exact iff_of_false nofun nofun
  | some value =>
    dsimp only [Option.bind_eq_bind, Option.bind_some]
    cases view value with
    | none => exact iff_of_false nofun nofun
    | some found =>
      exact ⟨fun same => congrArg some (Except.ok.inj same),
        fun same => congrArg Except.ok (Option.some.inj same)⟩

/-! ## Bodies -/

/-- A message of another kind is no query, and has no arguments to be at fault. -/
theorem readBody_of_ne (other : kind ≠ Key.method.bytes) :
    Faultless (readBody d transaction kind) ∧
      ∀ query, readBody d transaction kind ≠ .ok (.query query) := by
  rw [readBody, if_neg other]
  split
  · refine ⟨(faultless_readField _ _ _).bind fun reply _ => (faultless_readResponse reply).map _, ?_⟩
    intro query same
    rcases Bencode.bind_eq_ok_iff.mp same with ⟨reply, -, read⟩
    cases found : readResponse reply with
    | error error =>
      rw [found] at read
      cases read
    | ok response =>
      rw [found] at read
      cases read
  · split
    · refine ⟨(faultless_readField _ _ _).map _, ?_⟩
      intro query same
      cases found : readField d .error errorReply? with
      | error error =>
        rw [found] at same
        cases same
      | ok reply =>
        rw [found] at same
        cases same
    · refine ⟨faultless_ok _, fun query same => ?_⟩
      cases same

/-- Without a method or without arguments there is no query either. -/
theorem readBody_of_missing (missing : ¬ ((∃ method, d.getBytes? Key.method.bytes = some method) ∧
      ∃ arguments, d.getDict? Key.arguments.bytes = some arguments)) :
    Faultless (readBody d transaction Key.method.bytes) ∧
      ∀ query, readBody d transaction Key.method.bytes ≠ .ok (.query query) := by
  have hFields : ∀ {name : Bytes} {found : Dictionary},
      readField d .method Value.asBytes? = .ok name →
        readField d .arguments Value.asDict? ≠ .ok found := fun named given =>
    missing ⟨⟨_, readField_eq_ok_iff.mp named⟩, _, readField_eq_ok_iff.mp given⟩
  rw [readBody, if_pos rfl]
  constructor
  · refine Faultless.map (Faultless.bind (faultless_readField _ _ _) fun name named => ?_) _
    exact (faultless_readField _ _ _).bind fun found given => absurd given (hFields named)
  · intro query same
    cases read : readQuery d transaction with
    | error error =>
      rw [read] at same
      cases same
    | ok query =>
      rcases Bencode.bind_eq_ok_iff.mp read with ⟨name, named, rest⟩
      rcases Bencode.bind_eq_ok_iff.mp rest with ⟨found, given, -⟩
      exact hFields named given

/-! ## Datagrams -/

/-- What is read is no query, and no query with arguments at fault. -/
def NoQuery (result : Except MessageError Message) : Prop :=
  Faultless result ∧ ∀ message query, result = .ok message → message.body ≠ .query query

theorem noQuery_error {error : MessageError}
    (faultless : Faultless (.error error : Except MessageError Message)) :
    NoQuery (.error error) := by
  refine ⟨faultless, fun message query same => ?_⟩
  cases same

theorem noQuery_bind {α : Type} {result : Except MessageError α}
    {f : α → Except MessageError Message} (faultless : Faultless result)
    (rest : ∀ a, result = .ok a → NoQuery (f a)) : NoQuery (result >>= f) := by
  cases result with
  | error error =>
    have hSame : Faultless (.error error >>= f) := faultless.bind nofun
    exact noQuery_error hSame
  | ok a => exact rest a rfl

theorem decode_of_dictionary (read : Bencode.decodeDictionary data = .ok d)
    (found : d.getBytes? Key.transaction.bytes = some transaction) :
    decode data = readField d .kind Value.asBytes? >>= fun kind =>
      readBody d transaction kind >>= fun body =>
        .ok ⟨transaction, d.getBytes? Key.version.bytes, body⟩ := by
  rw [decode, read]
  dsimp only
  rw [ofDictionary, found]
  rfl

/-- A query is read as one, or one of its arguments is at fault; its transaction is known anyway. -/
theorem decode_of_isQuery (isQuery : IsQuery data transaction) :
    (∃ message query, decode data = .ok message ∧ message.body = .query query ∧
      message.transaction = transaction) ∨
    ∃ key, decode data = .error (.invalidArgument transaction key) := by
  rcases isQuery with ⟨d, read, hTransaction, hKind, ⟨method, hMethod⟩, arguments, hArguments⟩
  have hRead := decode_of_dictionary read hTransaction
  rw [readField_eq_ok_iff.mpr hKind] at hRead
  change decode data = readBody d transaction Key.method.bytes >>= _ at hRead
  rw [readBody_query (readField_eq_ok_iff.mpr hMethod) (readField_eq_ok_iff.mpr hArguments)] at hRead
  cases found : Query.ofArguments method arguments with
  | ok query =>
    rw [found] at hRead
    exact .inl ⟨_, query, hRead, rfl, rfl⟩
  | error key =>
    rw [found] at hRead
    exact .inr ⟨key, hRead⟩

/-- A query is sent as one. -/
theorem isQuery_encode {message : Message} {query : Query} (regular : message.Regular)
    (about : message.body = .query query) : IsQuery message.encode message.transaction := by
  have hFind : ∀ {key : Bytes} {content : Option Value},
      (key, content) ∈ message.body.entries ++ message.envelope →
        message.toDictionary.get? key = content := get?_toDictionary regular.distinct
  have hMethod : message.toDictionary.get? Key.method.bytes = some (.bytes query.methodBytes) :=
    hFind (by simp [about, Body.entries])
  have hArguments : message.toDictionary.get? Key.arguments.bytes = some query.arguments.toValue :=
    hFind (by simp [about, Body.entries])
  have hKind : message.toDictionary.get? Key.kind.bytes = some (.bytes Key.method.bytes) :=
    hFind (by simp [about, Body.kind, envelope])
  exact ⟨message.toDictionary, Bencode.decodeDictionary_encode regular.sound,
    Dictionary.getBytes?_of_get? (hFind (by simp [envelope])),
    Dictionary.getBytes?_of_get? hKind, ⟨_, Dictionary.getBytes?_of_get? hMethod⟩,
    _, Dictionary.getDict?_of_get? hArguments⟩

/-- What is no query is not taken for one. -/
theorem noQuery_decode (none : ∀ transaction, ¬ IsQuery data transaction) :
    NoQuery (decode data) := by
  cases read : Bencode.decodeDictionary data with
  | error error =>
    rw [decode, read]
    refine noQuery_error fun transaction key same => ?_
    cases same
  | ok d =>
    cases found : d.getBytes? Key.transaction.bytes with
    | none =>
      rw [decode, read]
      dsimp only
      rw [ofDictionary, found]
      refine noQuery_error fun transaction key same => ?_
      cases same
    | some transaction =>
      rw [decode_of_dictionary read found]
      refine noQuery_bind (faultless_readField _ _ _) fun kind hKind => ?_
      have hBody : Faultless (readBody d transaction kind) ∧
          ∀ query, readBody d transaction kind ≠ .ok (.query query) := by
        by_cases asks : kind = Key.method.bytes
        · subst asks
          apply readBody_of_missing
          intro fields
          exact none transaction ⟨d, read, found, readField_eq_ok_iff.mp hKind, fields⟩
        · exact readBody_of_ne asks
      refine noQuery_bind hBody.1 fun body hRead => ⟨faultless_ok _, ?_⟩
      intro message query same about
      rw [← Except.ok.inj same] at about
      exact hBody.2 query (hRead.trans (congrArg Except.ok about))

end Message
end Kademlia
