import Kademlia.Proofs.Bencode.Order
import Kademlia.Proofs.Message.Normal

namespace Kademlia

/-!
# The order in which messages list their keys

The keys of a bencode dictionary should ascend, so that one dictionary is written in one way.  A
query, a response and a refusal are written like this whatever they hold, since the writer inserts
their keys in this order.  A message of an unfamiliar kind is written with the entries of its own
dictionary first, and the transaction, the version and the kind behind them.  If the keys ascended
where it was read, they still do when it is written again, unless one of them belongs behind the
transaction.
-/

namespace Bencode

/-! ## Ascending keys -/

/-- One key comes before another. -/
def Before (a b : Bytes) : Prop :=
  compareBytes a b = .lt

instance (a b : Bytes) : Decidable (Before a b) :=
  inferInstanceAs (Decidable (compareBytes a b = .lt))

theorem Before.trans {a b c : Bytes} (first : Before a b) (second : Before b c) : Before a c := by
  unfold Before at first second ⊢
  rw [compareBytes_lt_iff] at first second ⊢
  exact bytes_lex_trans first second

theorem Before.ne {a b : Bytes} (before : Before a b) : a ≠ b := by
  intro same
  unfold Before at before
  rw [compareBytes_eq_iff.mpr same] at before
  cases before

/-- The keys of all dictionaries inside a value ascend. -/
inductive Value.Ascending : Value → Prop
  | bytes (content : Bytes) : Ascending (.bytes content)
  | integer (number : Int64) : Ascending (.integer number)
  | list {items : List Value} : (∀ item ∈ items, Ascending item) → Ascending (.list items)
  | dict {entries : List (Bytes × Value)} : (entries.map (·.1)).Pairwise Before →
    (∀ entry ∈ entries, Ascending entry.2) → Ascending (.dict entries)

namespace Value

attribute [simp] Ascending.bytes Ascending.integer

@[simp]
theorem ascending_list_iff {items : List Value} :
    Ascending (.list items) ↔ ∀ item ∈ items, item.Ascending := by
  constructor
  · rintro ⟨⟩
    assumption
  · exact .list

theorem ascending_toValue_iff {d : Dictionary} :
    d.toValue.Ascending ↔ d.keys.Pairwise Before ∧ ∀ entry ∈ d.entries, entry.2.Ascending := by
  constructor
  · rintro ⟨⟩
    constructor <;> assumption
  · rintro ⟨keys, inside⟩
    exact .dict keys inside

@[simp]
theorem ascending_ofString (text : String) : (Value.ofString text).Ascending :=
  .bytes _

end Value

/-- Of a dictionary into which keys were inserted in this order, the keys ascend. -/
theorem Dictionary.ascending_ofEntries {items : List (Bytes × Option Value)}
    (keys : (items.map (·.1)).Pairwise Before)
    (inside : ∀ item ∈ items, ∀ value ∈ item.2, value.Ascending) :
    (ofEntries items).toValue.Ascending := by
  have hEntries : (ofEntries items).entries = present items :=
    entries_ofEntries (keys.imp fun before => before.ne)
  rw [Value.ascending_toValue_iff, Dictionary.keys, hEntries]
  refine ⟨keys.sublist (keys_present_sublist items), ?_⟩
  rintro ⟨key, value⟩ member
  exact inside _ (mem_present.mp member) value rfl

end Bencode

open Bencode (Dictionary Value Entry Before)

/-! ## Familiar kinds -/

namespace Key

/-- All keys in ascending order. -/
def ascending : List Key :=
  [arguments, error, id, impliedPort, infoHash, nodes, nodes6, port, method, reply, transaction,
    target, token, version, values, want, kind]

theorem pairwise_ascending : (ascending.map bytes).Pairwise Before := by
  decide +kernel

theorem pairwise_bytes (keys : List Key) (ordered : keys.Sublist ascending) :
    (keys.map bytes).Pairwise Before :=
  pairwise_ascending.sublist (ordered.map bytes)

end Key

@[simp]
theorem NodeId.ascending_toValue (id : NodeId) : id.toValue.Ascending :=
  .bytes _

@[simp]
theorem Want.ascending_toValue (want : Want) : want.toValue.Ascending := by
  cases want <;> simp [toValue]

@[simp]
theorem Compact.ascending_encodePeers (peers : List Address) : (encodePeers peers).Ascending := by
  simp [encodePeers]

@[simp]
theorem ErrorReply.ascending_toValue (e : ErrorReply) : e.toValue.Ascending := by
  simp [toValue]

@[simp]
theorem Query.ascending_arguments (q : Query) : q.arguments.toValue.Ascending := by
  cases q with
  | ping =>
    have hKeys := Key.pairwise_bytes [.id] (by decide)
    exact Dictionary.ascending_ofEntries hKeys (by simp)
  | findNode =>
    have hKeys := Key.pairwise_bytes [.id, .target, .want] (by decide)
    exact Dictionary.ascending_ofEntries hKeys (by simp)
  | getPeers =>
    have hKeys := Key.pairwise_bytes [.id, .infoHash, .want] (by decide)
    exact Dictionary.ascending_ofEntries hKeys (by simp)
  | announcePeer =>
    have hKeys := Key.pairwise_bytes [.id, .impliedPort, .infoHash, .port, .token] (by decide)
    exact Dictionary.ascending_ofEntries hKeys (by simp)
  | other =>
    have hKeys := Key.pairwise_bytes [.id] (by decide)
    exact Dictionary.ascending_ofEntries hKeys (by simp)

@[simp]
theorem Response.ascending_toDictionary (r : Response) : r.toDictionary.toValue.Ascending := by
  have hKeys := Key.pairwise_bytes [.id, .nodes, .nodes6, .token, .values] (by decide)
  exact Dictionary.ascending_ofEntries hKeys (by simp)

namespace Message

variable {m : Message} {kind : Bytes} {payload : Dictionary}

theorem ascending_envelope : ∀ item ∈ m.envelope, ∀ value ∈ item.2, value.Ascending := by
  simp [envelope]

/-- Whatever a query, a response or a refusal holds, it is written with ascending keys. -/
theorem ascending_of_familiar (familiar : ∀ kind payload, m.body ≠ .other kind payload) :
    m.toDictionary.toValue.Ascending := by
  have hInside : (∀ item ∈ m.body.entries, ∀ value ∈ item.2, value.Ascending) →
      ∀ item ∈ m.body.entries ++ m.envelope, ∀ value ∈ item.2, value.Ascending :=
    fun body => List.forall_mem_append.mpr ⟨body, ascending_envelope⟩
  refine Dictionary.ascending_ofEntries ?_ (hInside ?_)
  · change ((m.body.entries ++ m.envelope).map (·.1)).Pairwise Before
    cases about : m.body with
    | query =>
      exact Key.pairwise_bytes [.arguments, .method, .transaction, .version, .kind] (by decide)
    | response => exact Key.pairwise_bytes [.reply, .transaction, .version, .kind] (by decide)
    | error => exact Key.pairwise_bytes [.error, .transaction, .version, .kind] (by decide)
    | other kind payload => exact absurd about (familiar kind payload)
  · cases about : m.body with
    | query => simp [Body.entries]
    | response => simp [Body.entries]
    | error => simp [Body.entries]
    | other kind payload => exact absurd about (familiar kind payload)

/-! ## Unfamiliar kinds -/

/-- A key that is written behind all others, or comes before those. -/
def Fits (key : Bytes) : Prop :=
  key ∈ [Key.transaction.bytes, Key.version.bytes, Key.kind.bytes] ∨
    Before key Key.transaction.bytes

theorem before_envelope {key other : Bytes} (before : Before key Key.transaction.bytes)
    (closing : other ∈ [Key.transaction.bytes, Key.version.bytes, Key.kind.bytes]) :
    Before key other := by
  have hKeys := Key.pairwise_bytes [.transaction, .version, .kind] (by decide)
  rcases List.mem_cons.mp closing with rfl | later
  · exact before
  · exact before.trans ((List.pairwise_cons.mp hKeys).1 other later)

/-- A dictionary of an unfamiliar kind whose keys ascend is written with ascending keys if and only
if each of them is either written behind the others anyway, or comes before the transaction. -/
theorem ascending_other_iff (about : m.body = .other kind payload)
    (ascending : payload.toValue.Ascending) :
    m.toDictionary.toValue.Ascending ↔ ∀ key ∈ payload.keys, Fits key := by
  rcases Value.ascending_toValue_iff.mp ascending with ⟨keys, inside⟩
  have hDistinct : payload.keys.Nodup := keys.imp fun before => before.ne
  have hClosing := Key.pairwise_bytes [.transaction, .version, .kind] (by decide)
  have hEnvelope := Dictionary.keys_present_sublist m.envelope
  rw [Value.ascending_toValue_iff, Dictionary.keys, entries_toDictionary about hDistinct,
    List.map_append, List.pairwise_append]
  constructor
  · rintro ⟨⟨-, -, apart⟩, -⟩ key among
    rcases List.mem_map.mp among with ⟨entry, member, rfl⟩
    by_cases closing : entry.1 ∈ [Key.transaction.bytes, Key.version.bytes, Key.kind.bytes]
    · exact .inl closing
    · have hWritten : (Key.transaction.bytes, Value.bytes m.transaction) ∈
          Dictionary.present m.envelope := Dictionary.mem_present.mpr List.mem_cons_self
      exact .inr (apart _ (List.mem_map_of_mem (mem_inner.mpr ⟨member, closing⟩)) _
        (List.mem_map_of_mem hWritten))
  · intro fits
    refine ⟨⟨keys.sublist (List.filter_sublist.map _), hClosing.sublist hEnvelope, ?_⟩, ?_⟩
    · intro key among other closing
      rcases List.mem_map.mp among with ⟨entry, member, rfl⟩
      rcases mem_inner.mp member with ⟨stored, another⟩
      rcases fits _ (List.mem_map_of_mem stored) with behind | before
      · exact absurd behind another
      · exact before_envelope before (hEnvelope.subset closing)
    · rintro ⟨key, value⟩ member
      rcases List.mem_append.mp member with stored | written
      · exact inside _ (mem_inner.mp stored).1
      · exact ascending_envelope _ (Dictionary.mem_present.mp written) value rfl

theorem IsFrom.payload_eq {d : Dictionary} (isFrom : m.IsFrom d)
    (about : m.body = .other kind payload) : payload = d := by
  rcases readBody_cases isFrom.body with ⟨-, q, familiar, -⟩ | ⟨-, reply, r, familiar, -⟩ |
    ⟨-, e, familiar, -⟩ | ⟨-, same⟩
  · cases familiar.symm.trans about
  · cases familiar.symm.trans about
  · cases familiar.symm.trans about
  · cases same.symm.trans about
    rfl

/-- Where the keys of all dictionaries in a datagram ascend, they do so in what is written for its
message, if and only if the message is of a familiar kind or each key of its dictionary is one of
the three that are written last or comes before the transaction. -/
theorem ascending_toDictionary_iff (datagram : Bytes) (m : Message) {value : Value}
    (taken : Bencode.decode datagram = .ok value) (ascending : value.Ascending)
    (read : decode datagram = .ok m) :
    m.toDictionary.toValue.Ascending ↔
      ∀ kind payload, m.body = .other kind payload → ∀ key ∈ payload.keys, Fits key := by
  rcases isFrom_of_decode read with ⟨d, opened, isFrom⟩
  have hSame : value = d.toValue :=
    Except.ok.inj (taken.symm.trans (Bencode.decodeDictionary_eq_ok_iff.mp opened))
  cases about : m.body with
  | other kind payload =>
    rcases isFrom.payload_eq about with rfl
    rw [hSame] at ascending
    rw [ascending_other_iff about ascending]
    constructor
    · rintro fits _ _ same
      rcases Body.other.inj same with ⟨-, rfl⟩
      exact fits
    · exact fun fits => fits kind payload rfl
  | query => exact iff_of_true (ascending_of_familiar (by rw [about]; exact nofun)) nofun
  | response => exact iff_of_true (ascending_of_familiar (by rw [about]; exact nofun)) nofun
  | error => exact iff_of_true (ascending_of_familiar (by rw [about]; exact nofun)) nofun

/-- A dictionary of the kind `x` with an entry that comes before the transaction. -/
def leading : Dictionary :=
  ⟨[([0x61], .integer 1), ([0x74], .bytes [0x61]), ([0x79], .bytes [0x78])]⟩

theorem ascending_leading :
    Bencode.decode leading.encode = .ok leading.toValue ∧ leading.toValue.Ascending ∧
      decode leading.encode = .ok ⟨[0x61], none, .other [0x78] leading⟩ ∧
      (toDictionary ⟨[0x61], none, .other [0x78] leading⟩).toValue.Ascending := by
  have hTaken : Bencode.decode leading.encode = .ok leading.toValue := by
    decide +kernel
  have hAscending : leading.toValue.Ascending :=
    .dict (by decide +kernel) (by simp [leading])
  have hRead : decode leading.encode = .ok ⟨[0x61], none, .other [0x78] leading⟩ := by
    decide +kernel
  refine ⟨hTaken, hAscending, hRead, ?_⟩
  refine (ascending_toDictionary_iff _ _ hTaken hAscending hRead).mpr ?_
  rintro _ _ same key among
  rcases Body.other.inj same with ⟨-, rfl⟩
  revert key
  unfold Fits
  decide +kernel

/-- A dictionary of the kind `x` with an entry that belongs between the transaction and the kind. -/
def intermediate : Dictionary :=
  ⟨[([0x74], .bytes [0x61]), ([0x75], .bytes [0x62]), ([0x79], .bytes [0x78])]⟩

/-- What is written for it begins with the entry that belongs behind the first. -/
theorem not_ascending_intermediate :
    intermediate.encode = Bytes.ofString "d1:t1:a1:u1:b1:y1:xe" ∧
      Bencode.decode intermediate.encode = .ok intermediate.toValue ∧
      intermediate.toValue.Ascending ∧
      ∃ m, decode intermediate.encode = .ok m ∧
        m.encode = Bytes.ofString "d1:u1:b1:t1:a1:y1:xe" ∧
        ¬ m.toDictionary.toValue.Ascending := by
  have hAscending : intermediate.toValue.Ascending :=
    .dict (by decide +kernel) (by simp [intermediate])
  refine ⟨by decide +kernel, by decide +kernel, hAscending, ⟨[0x61], none, .other [0x78] intermediate⟩,
    by decide +kernel, by decide +kernel, fun written => ?_⟩
  have hFits := (ascending_other_iff rfl hAscending).mp written [0x75] (by decide)
  revert hFits
  unfold Fits
  decide +kernel

end Message
end Kademlia
