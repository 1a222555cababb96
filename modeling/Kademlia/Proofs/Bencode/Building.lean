import Kademlia.Proofs.Bencode.Dictionary
import Mathlib.Data.Set.Card

namespace Kademlia
namespace Bencode

/-!
# Dictionaries by the calls that build them

A dictionary is built call by call, and a call without a value is none.  The first call for a key
decides where the key stands and the last one what is found under it, however many there are and
whatever comes between them (`faithful_build`).  So the keys are distinct, and the first entry that
has a key is the only one.
-/

namespace Value

variable {value : Value}

theorem asBytes?_eq_some_iff {content : Bytes} :
    value.asBytes? = some content ↔ value = .bytes content := by
  cases value <;> simp [asBytes?]

theorem asInteger?_eq_some_iff {content : Int64} :
    value.asInteger? = some content ↔ value = .integer content := by
  cases value <;> simp [asInteger?]

theorem asList?_eq_some_iff {content : List Value} :
    value.asList? = some content ↔ value = .list content := by
  cases value <;> simp [asList?]

theorem asDict?_eq_some_iff {content : Dictionary} :
    value.asDict? = some content ↔ value = content.toValue := by
  rcases content with ⟨entries⟩
  cases value <;> simp [asDict?, Dictionary.toValue]

end Value

namespace Dictionary

/-- A call to the builder of a dictionary. -/
inductive Call where
  | insert (key : Bytes) (value : Value)
  | insertOpt (key : Bytes) (value : Option Value)
deriving DecidableEq

namespace Call

def key : Call → Bytes
  | insert key _ | insertOpt key _ => key

/-- The value that comes with a call, if one does. -/
def value? : Call → Option Value
  | insert _ value => some value
  | insertOpt _ value => value

/-- What a call makes of a dictionary. -/
def perform (d : Dictionary) : Call → Dictionary
  | insert key value => d.insert key value
  | insertOpt key value => d.insertOpt key value

end Call

/-- The dictionary that comes of some calls, one after another. -/
def build (calls : List Call) : Dictionary :=
  calls.foldl Call.perform empty

/-- What was inserted, in the order of the calls. -/
def insertions (calls : List Call) : List Entry :=
  present (calls.map fun call => (call.key, call.value?))

/-- The value that was inserted last under a key. -/
def last? (calls : List Call) (key : Bytes) : Option Value :=
  ((insertions calls).filter (·.1 = key)).getLast?.map (·.2)

/-- How much was inserted before a key was for the first time. -/
def firstAt (calls : List Call) (key : Bytes) : Nat :=
  ((insertions calls).map (·.1)).idxOf key

variable {d : Dictionary} {key other : Bytes} {value : Value} {calls : List Call} {call : Call}

/-! ## One call -/

theorem find?_insertEntry (entries : List Entry) (key other : Bytes) (value : Value) :
    (insertEntry key value entries).find? (·.1 = other) =
      if key = other then some (key, value) else entries.find? (·.1 = other) := by
  induction entries with
  | nil =>
    rw [insertEntry, List.find?_cons, List.find?_nil]
    by_cases same : key = other <;> simp [same]
  | cons entry rest ih =>
    rw [insertEntry]
    by_cases here : entry.1 = key
    · rw [if_pos here, List.find?_cons, List.find?_cons, here]
      by_cases same : key = other <;> simp [same]
    · rw [if_neg here, List.find?_cons, List.find?_cons, ih]
      by_cases found : entry.1 = other
      · have hOther : key ≠ other := fun same => here (found.trans same.symm)
        simp [found, hOther]
      · simp [found]

/-- Inserting changes what is found under the key, and nothing else. -/
theorem get?_insert (d : Dictionary) (key other : Bytes) (value : Value) :
    (d.insert key value).get? other = if key = other then some value else d.get? other := by
  rw [get?, insert, find?_insertEntry]
  by_cases same : key = other
  · rw [if_pos same, if_pos same]
    rfl
  · rw [if_neg same, if_neg same]
    rfl

theorem keys_insertEntry_of_mem {entries : List Entry} (known : key ∈ entries.map (·.1)) :
    (insertEntry key value entries).map (·.1) = entries.map (·.1) := by
  induction entries with
  | nil => cases known
  | cons entry rest ih =>
    rw [insertEntry]
    by_cases here : entry.1 = key
    · rw [if_pos here, List.map_cons, List.map_cons, here]
    · have hRest := (List.mem_cons.mp known).resolve_left (Ne.symm here)
      rw [if_neg here, List.map_cons, List.map_cons, ih hRest]

/-- A key that is new goes behind the others. -/
theorem keys_insert (d : Dictionary) (key : Bytes) (value : Value) :
    (d.insert key value).keys = if key ∈ d.keys then d.keys else d.keys ++ [key] := by
  by_cases known : key ∈ d.keys
  · rw [if_pos known]
    exact keys_insertEntry_of_mem known
  · rw [if_neg known, keys, insert, insertEntry_of_not_mem known, List.map_append]
    rfl

theorem perform_eq (d : Dictionary) (call : Call) :
    call.perform d = d.insertOpt call.key call.value? := by
  cases call <;> rfl

theorem get?_perform (d : Dictionary) (call : Call) (key : Bytes) :
    (call.perform d).get? key =
      if call.key = key then call.value?.or (d.get? key) else d.get? key := by
  rw [perform_eq]
  cases call.value? with
  | some value => exact get?_insert d call.key key value
  | none => exact (ite_self _).symm

/-! ## What is found -/

theorem get?_ne_none_iff : d.get? key ≠ none ↔ key ∈ d.keys := by
  rw [get?, ne_eq, Option.map_eq_none_iff, List.find?_eq_none, keys, List.mem_map]
  simp only [decide_eq_true_eq, not_forall, not_not, exists_prop]

theorem contains_iff : d.contains key = true ↔ d.get? key ≠ none := by
  rw [contains, Option.isSome_iff_ne_none]

theorem size_eq_ncard (distinct : d.keys.Nodup) : d.size = {key | d.get? key ≠ none}.ncard := by
  have hKeys : {key | d.get? key ≠ none} = (d.keys.toFinset : Set Bytes) := by
    ext key
    rw [Set.mem_ofPred_eq, get?_ne_none_iff, List.coe_toFinset, Set.mem_ofPred_eq]
  rw [hKeys, Set.ncard_coe_finset, List.toFinset_card_of_nodup distinct, keys, List.length_map, size]

theorem isEmpty_iff : d.isEmpty = true ↔ ∀ key, d.get? key = none := by
  rw [isEmpty, List.isEmpty_iff]
  constructor
  · intro none key
    rw [get?, none]
    rfl
  · intro nothing
    refine List.eq_nil_iff_forall_not_mem.mpr fun entry member => ?_
    exact get?_ne_none_iff.mpr (List.mem_map_of_mem member) (nothing entry.1)

/-- A getter that expects one kind of value finds what stands there in that kind. -/
theorem get?_bind_eq_some_iff {α : Type} {view : Value → Option α} {write : α → Value} {content : α}
    (exact : ∀ {value}, view value = some content ↔ value = write content) :
    d.get? key >>= view = some content ↔ d.get? key = some (write content) := by
  cases d.get? key with
  | none => exact iff_of_false nofun nofun
  | some value => exact exact.trans Option.some_inj.symm

/-! ## A whole history -/

theorem build_append (calls : List Call) (call : Call) :
    build (calls ++ [call]) = call.perform (build calls) := by
  rw [build, build, List.foldl_append]
  rfl

theorem build_eq_ofEntries (calls : List Call) :
    build calls = ofEntries (calls.map fun call => (call.key, call.value?)) := by
  rw [build, ofEntries, List.foldl_map]
  exact congrArg (fun step => calls.foldl step empty) (funext₂ perform_eq)

theorem insertions_append (calls : List Call) (call : Call) :
    insertions (calls ++ [call]) = insertions calls ++ present [(call.key, call.value?)] := by
  rw [insertions, List.map_append, present_append]
  rfl

theorem last?_append (calls : List Call) (call : Call) (key : Bytes) :
    last? (calls ++ [call]) key =
      if call.key = key then call.value?.or (last? calls key) else last? calls key := by
  rw [last?, insertions_append, List.filter_append]
  cases hValue : call.value? with
  | none =>
    rw [Option.none_or, ite_self]
    exact congrArg _ (congrArg List.getLast? (List.append_nil _))
  | some value =>
    change (_ ++ [(call.key, value)].filter _).getLast?.map _ = _
    rw [List.filter_singleton]
    by_cases same : call.key = key
    · rw [if_pos same, decide_eq_true same, cond_true, List.getLast?_concat]
      rfl
    · rw [if_neg same, decide_eq_false same, cond_false, List.append_nil]
      rfl

/-- Under each key stands the last value. -/
theorem get?_build (calls : List Call) (key : Bytes) : (build calls).get? key = last? calls key := by
  induction calls using List.reverseRecOn with
  | nil => rfl
  | append_singleton calls call ih => rw [build_append, get?_perform, last?_append, ih]

/-- The keys are those under which something was inserted. -/
theorem mem_keys_build : key ∈ (build calls).keys ↔ key ∈ (insertions calls).map (·.1) := by
  rw [← get?_ne_none_iff, get?_build, last?, ne_eq, Option.map_eq_none_iff,
    List.getLast?_eq_none_iff, List.filter_eq_nil_iff, List.mem_map]
  simp only [decide_eq_true_eq, not_forall, not_not, exists_prop]

/-- A key that was inserted keeps its place. -/
theorem firstAt_append (known : key ∈ (build calls).keys) :
    firstAt (calls ++ [call]) key = firstAt calls key := by
  rw [firstAt, insertions_append, List.map_append]
  exact List.idxOf_append_of_mem (mem_keys_build.mp known)

/-- A key that is new comes behind all that was inserted. -/
theorem firstAt_lt_append (known : key ∈ (build calls).keys) (new : call.key ∉ (build calls).keys)
    (filled : call.value? = some value) :
    firstAt (calls ++ [call]) key < firstAt (calls ++ [call]) call.key := by
  have hKnown := List.idxOf_lt_length_of_mem (mem_keys_build.mp known)
  have hLast : firstAt (calls ++ [call]) call.key = ((insertions calls).map (·.1)).length := by
    rw [firstAt, insertions_append, List.map_append, filled,
      List.idxOf_append_of_notMem (mt mem_keys_build.mpr new)]
    exact congrArg (_ + ·) List.idxOf_cons_self
  rw [firstAt_append known, hLast]
  exact hKnown

/-- The keys stand in the order in which they were first inserted. -/
theorem pairwise_firstAt (calls : List Call) :
    (build calls).keys.Pairwise fun a b => firstAt calls a < firstAt calls b := by
  induction calls using List.reverseRecOn with
  | nil => exact .nil
  | append_singleton calls call ih =>
    have hOld : (build calls).keys.Pairwise fun a b =>
        firstAt (calls ++ [call]) a < firstAt (calls ++ [call]) b := by
      refine ih.imp_of_mem fun {a b} first second earlier => ?_
      rw [firstAt_append first, firstAt_append second]
      exact earlier
    rw [build_append, perform_eq]
    cases hValue : call.value? with
    | none => exact hOld
    | some value =>
      rw [insertOpt, keys_insert]
      split
      next => exact hOld
      next new =>
        refine List.pairwise_append.mpr ⟨hOld, List.pairwise_singleton _ _, ?_⟩
        intro key known last here
        rw [List.mem_singleton.mp here]
        exact firstAt_lt_append known new hValue

/-- What a dictionary says agrees with the calls that have built it. -/
structure Faithful (calls : List Call) (d : Dictionary) : Prop where
  distinct : d.keys.Nodup
  inOrder : d.keys.Pairwise fun a b => firstAt calls a < firstAt calls b
  found : ∀ key, d.get? key = last? calls key
  listed : ∀ key, key ∈ d.keys ↔ d.get? key ≠ none
  contains : ∀ key, d.contains key = true ↔ d.get? key ≠ none
  size : d.size = {key | d.get? key ≠ none}.ncard
  isEmpty : d.isEmpty = true ↔ ∀ key, d.get? key = none
  bytes : ∀ key content, d.getBytes? key = some content ↔ d.get? key = some (.bytes content)
  integer : ∀ key content, d.getInteger? key = some content ↔ d.get? key = some (.integer content)
  list : ∀ key content, d.getList? key = some content ↔ d.get? key = some (.list content)
  dict : ∀ key content, d.getDict? key = some content ↔ d.get? key = some content.toValue

/-- Whatever the calls, the dictionary has each key once, in the order in which the keys were first
inserted, and under each of them the value that was inserted last; calls without a value count for
nothing.  All that can be asked of it agrees with that, and one more call leaves what is found under
every other key. -/
theorem faithful_build (calls : List Call) :
    Faithful calls (build calls) ∧
      ∀ (call : Call) (other : Bytes), other ≠ call.key →
        (build (calls ++ [call])).get? other = (build calls).get? other := by
  have hDistinct : (build calls).keys.Nodup := by
    rw [build_eq_ofEntries]
    exact nodup_ofEntries _
  refine ⟨?_, fun call other apart => ?_⟩
  · exact {
      distinct := hDistinct
      inOrder := pairwise_firstAt calls
      found := get?_build calls
      listed := fun key => get?_ne_none_iff.symm
      contains := fun key => contains_iff
      size := size_eq_ncard hDistinct
      isEmpty := isEmpty_iff
      bytes := fun key content => get?_bind_eq_some_iff Value.asBytes?_eq_some_iff
      integer := fun key content => get?_bind_eq_some_iff Value.asInteger?_eq_some_iff
      list := fun key content => get?_bind_eq_some_iff Value.asList?_eq_some_iff
      dict := fun key content => get?_bind_eq_some_iff Value.asDict?_eq_some_iff }
  · rw [build_append, get?_perform, if_neg (Ne.symm apart)]

/-- A key that was replaced keeps its last value when another one is. -/
theorem faithful_build_of_replaced :
    let calls : List Call := [.insert [0x61] (.integer 1), .insert [0x62] (.integer 2),
      .insert [0x61] (.integer 3), .insertOpt [0x63] none]
    let call : Call := .insert [0x62] (.bytes [])
    (build calls).keys = [[0x61], [0x62]] ∧ [0x61] ≠ call.key ∧
      (build (calls ++ [call])).get? [0x61] = some (.integer 3) := by
  intro calls call
  have hApart : [0x61] ≠ call.key := by decide
  exact ⟨rfl, hApart, (faithful_build calls).2 call [0x61] hApart⟩

end Dictionary
end Bencode
end Kademlia
