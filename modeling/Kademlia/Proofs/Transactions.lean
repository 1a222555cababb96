import Kademlia.Proofs.Sequence
import Kademlia.Transactions

namespace Kademlia

/-- The octets of a number give it back. -/
@[simp]
theorem TransactionId.ofBytes?_toBytes (id : TransactionId) : ofBytes? id.toBytes = some id := by
  have hLength : id.toBytes.length = 2 := BigEndian.length_encode 2 id.number.toNat
  have hBound : id.number.toNat < BigEndian.capacity 2 := id.number.toNat_lt
  rw [ofBytes?, if_pos hLength, toBytes, BigEndian.decode_encode, Nat.mod_eq_of_lt hBound,
    UInt16.ofNat_toNat]

/-- Two octets are those of the number that they are read as. -/
theorem TransactionId.toBytes_of_ofBytes? {bytes : Bytes} {id : TransactionId}
    (read : ofBytes? bytes = some id) : id.toBytes = bytes := by
  unfold ofBytes? at read
  by_cases two : bytes.length = 2
  · rw [if_pos two] at read
    have hBound := BigEndian.decode_lt bytes
    rw [two] at hBound
    have hNumber : id.number.toNat = BigEndian.decode bytes := by
      rw [← Option.some.inj read]
      exact UInt16.toNat_ofNat_of_lt' hBound
    unfold toBytes
    rw [hNumber, ← two, BigEndian.encode_decode]
  · rw [if_neg two] at read
    cases read

theorem TransactionId.toBytes_inj {a b : TransactionId} (same : a.toBytes = b.toBytes) : a = b := by
  have hRead := ofBytes?_toBytes a
  rw [same, ofBytes?_toBytes] at hRead
  exact (Option.some.inj hRead).symm

namespace Transactions

/-! The query that waits under a number, when there is no more than one. -/

variable {ts : Transactions} {t : Transaction} {id : TransactionId} {now : Instant}
  {timeout : Duration}

theorem mem_of_get? (found : ts.get? id = some t) : t ∈ ts.pending ∧ t.id = id :=
  of_find?_eq found

theorem get?_of_mem (distinct : (ts.pending.map (·.id)).Nodup) (waits : t ∈ ts.pending) :
    ts.get? t.id = some t :=
  find?_of_mem distinct waits

theorem isSome_get? : (ts.get? id).isSome = true ↔ id ∈ ts.pending.map (·.id) := by
  unfold get?
  rw [List.find?_isSome, List.mem_map]
  constructor
  · rintro ⟨t, waits, same⟩
    exact ⟨t, waits, of_decide_eq_true same⟩
  · rintro ⟨t, waits, same⟩
    exact ⟨t, waits, decide_eq_true same⟩

theorem filter_unknown (unknown : ts.get? id = none) :
    ts.pending.filter (·.id ≠ id) = ts.pending := by
  apply List.filter_eq_self.mpr
  intro t waits
  have hOther := List.find?_eq_none.mp unknown t waits
  exact decide_eq_true fun same => hOther (decide_eq_true same)

theorem get?_erase (other : TransactionId) :
    (ts.erase id).get? other = if other = id then none else ts.get? other := by
  unfold get? erase
  dsimp only
  rw [List.find?_filter]
  by_cases same : other = id
  · rw [if_pos same, List.find?_eq_none]
    intro t _ met
    rcases of_decide_eq_true met with ⟨different, here⟩
    exact of_decide_eq_true different ((of_decide_eq_true here).trans same)
  · rw [if_neg same]
    congr 1
    funext t
    rw [decide_eq_decide, decide_eq_true_eq, decide_eq_true_eq]
    refine and_iff_right_of_imp fun here => ?_
    rw [here]
    exact same

theorem get?_record (other : TransactionId) :
    (ts.record t).get? other = if other = t.id then some t else ts.get? other := by
  have hErased := @get?_erase ts t.id other
  unfold get? at hErased ⊢
  unfold record
  dsimp only
  rw [List.find?_append, hErased]
  by_cases same : other = t.id
  · rw [if_pos same, if_pos same, Option.none_or, List.find?_singleton, same]
    exact if_pos (decide_eq_true rfl)
  · rw [if_neg same, if_neg same, List.find?_singleton,
      if_neg fun here => same (of_decide_eq_true here).symm, Option.or_none]

/-- A query that is taken out and put back waits under its number as before. -/
theorem get?_record_erase (found : ts.get? t.id = some t) (other : TransactionId) :
    ((ts.erase t.id).record t).get? other = ts.get? other := by
  rw [get?_record, get?_erase]
  split
  next same => rw [same, found]
  next => rfl

theorem perm_record_erase (distinct : (ts.pending.map (·.id)).Nodup)
    (found : ts.get? t.id = some t) : ((ts.erase t.id).record t).pending.Perm ts.pending := by
  have hWaits := (mem_of_get? found).1
  have hErased : ((ts.erase t.id).erase t.id).pending = ts.pending.filter (·.id ≠ t.id) := by
    unfold erase
    dsimp only
    rw [List.filter_filter]
    simp only [Bool.and_self]
  unfold record
  dsimp only
  rw [hErased]
  exact (List.perm_append_singleton _ _).trans (perm_cons_filter_ne distinct hWaits).symm

/-- A query that has waited long enough is taken out. -/
theorem expire_overdue (distinct : (ts.pending.map (·.id)).Nodup) (waits : t ∈ ts.pending)
    (overdue : t.issued + timeout ≤ now) :
    ts.expire now t.id timeout = (some t, ts.erase t.id) := by
  have hOverdue : isOverdue now timeout t = true := by
    apply decide_eq_true
    exact Nat.le_sub_of_add_le' overdue
  unfold expire
  rw [get?_of_mem distinct waits]
  exact if_pos hOverdue

end Transactions
end Kademlia
