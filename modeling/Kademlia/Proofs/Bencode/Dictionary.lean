import Kademlia.Proofs.Bencode.RoundTrip
import Kademlia.Proofs.Sequence

namespace Kademlia
namespace Bencode

/-!
# Dictionaries by their entries

A dictionary that is built by inserting entries one after another holds each of them, in order, as
long as no key comes twice.  Its keys are distinct in any case, so that of all that the reader asks
for only the limits are left to check: `Sound` says of a value at a depth that the reader accepts it
there.
-/

namespace Dictionary

variable {key other : Bytes} {value : Value} {entries : List Entry}
  {items : List (Bytes × Option Value)}

/-! ## Inserting -/

theorem insertEntry_of_not_mem (absent : key ∉ entries.map (·.1)) :
    insertEntry key value entries = entries ++ [(key, value)] := by
  induction entries with
  | nil => rfl
  | cons entry rest ih =>
    rw [List.map_cons, List.mem_cons, not_or] at absent
    rw [insertEntry, if_neg (Ne.symm absent.1), ih absent.2, List.cons_append]

theorem mem_insertEntry {entry : Entry} (member : entry ∈ insertEntry key value entries) :
    entry = (key, value) ∨ entry ∈ entries := by
  induction entries with
  | nil => exact .inl (List.mem_singleton.mp member)
  | cons first rest ih =>
    rw [insertEntry] at member
    by_cases here : first.1 = key
    · rw [if_pos here, List.mem_cons] at member
      rcases member with same | later
      · exact .inl same
      · exact .inr (List.mem_cons_of_mem first later)
    · rw [if_neg here, List.mem_cons] at member
      rcases member with rfl | later
      · exact .inr List.mem_cons_self
      · rcases ih later with same | old
        · exact .inl same
        · exact .inr (List.mem_cons_of_mem first old)

theorem nodup_insertEntry (distinct : (entries.map (·.1)).Nodup) :
    ((insertEntry key value entries).map (·.1)).Nodup := by
  induction entries with
  | nil => exact List.nodup_cons.mpr ⟨List.not_mem_nil, List.nodup_nil⟩
  | cons first rest ih =>
    rcases List.nodup_cons.mp distinct with ⟨apart, later⟩
    rw [insertEntry]
    by_cases here : first.1 = key
    · rw [if_pos here, List.map_cons, ← here]
      exact distinct
    · rw [if_neg here, List.map_cons]
      refine List.nodup_cons.mpr ⟨fun twice => ?_, ih later⟩
      rcases List.mem_map.mp twice with ⟨entry, member, same⟩
      rcases mem_insertEntry member with rfl | old
      · exact here same.symm
      · exact apart (List.mem_map.mpr ⟨entry, old, same⟩)

/-! ## Building -/

/-- Entries without a value do not count. -/
def present (items : List (Bytes × Option Value)) : List Entry :=
  items.filterMap fun item => item.2.map fun value => (item.1, value)

theorem mem_present : (key, value) ∈ present items ↔ (key, some value) ∈ items := by
  constructor
  · intro member
    rcases List.mem_filterMap.mp member with ⟨⟨name, content⟩, among, same⟩
    rcases Option.map_eq_some_iff.mp same with ⟨found, rfl, same⟩
    rcases Prod.mk.inj same with ⟨rfl, rfl⟩
    exact among
  · intro among
    exact List.mem_filterMap.mpr ⟨(key, some value), among, rfl⟩

theorem present_append (first second : List (Bytes × Option Value)) :
    present (first ++ second) = present first ++ present second :=
  List.filterMap_append

theorem present_map_some (entries : List Entry) :
    present (entries.map fun entry => (entry.1, some entry.2)) = entries := by
  rw [present, List.filterMap_map]
  exact List.filterMap_some

theorem keys_present_sublist (items : List (Bytes × Option Value)) :
    ((present items).map (·.1)).Sublist (items.map (·.1)) := by
  induction items with
  | nil => exact .slnil
  | cons item rest ih =>
    rcases item with ⟨key, content⟩
    cases content with
    | none => exact .cons key ih
    | some value => exact .cons_cons key ih

/-- Inserting keeps what was there, and what comes with it is new. -/
theorem foldl_insertOpt (d : Dictionary) (distinct : (d.keys ++ items.map (·.1)).Nodup) :
    (items.foldl (fun d (key, value) => d.insertOpt key value) d).entries =
      d.entries ++ present items := by
  induction items generalizing d with
  | nil => exact (List.append_nil d.entries).symm
  | cons item rest ih =>
    rcases item with ⟨key, content⟩
    have hKey : key ∉ d.keys := by
      intro member
      exact (List.nodup_append.mp distinct).2.2 key member key List.mem_cons_self rfl
    rw [List.foldl_cons]
    cases content with
    | none =>
      exact ih d (distinct.sublist ((List.Sublist.refl d.keys).append (.cons key (.refl _))))
    | some value =>
      have hEntries : (d.insert key value).entries = d.entries ++ [(key, value)] :=
        insertEntry_of_not_mem hKey
      have hKeys : (d.insert key value).keys = d.keys ++ [key] := by
        rw [keys, hEntries, List.map_append]
        rfl
      have hRest := ih (d.insert key value) (by
        rw [hKeys, List.append_assoc]
        exact distinct)
      rw [hEntries, List.append_assoc] at hRest
      exact hRest

theorem entries_ofEntries (distinct : (items.map (·.1)).Nodup) :
    (ofEntries items).entries = present items :=
  foldl_insertOpt empty distinct

theorem nodup_foldl_insertOpt (d : Dictionary) (distinct : d.keys.Nodup) :
    (items.foldl (fun d (key, value) => d.insertOpt key value) d).keys.Nodup := by
  induction items generalizing d with
  | nil => exact distinct
  | cons item rest ih =>
    rw [List.foldl_cons]
    rcases item with ⟨key, content⟩
    cases content with
    | none => exact ih d distinct
    | some value => exact ih (d.insert key value) (nodup_insertEntry distinct)

/-- Whatever is inserted, in whatever order, no key is there twice. -/
theorem nodup_ofEntries (items : List (Bytes × Option Value)) : (ofEntries items).keys.Nodup :=
  nodup_foldl_insertOpt empty List.nodup_nil

theorem mem_foldl_insertOpt {entry : Entry} (d : Dictionary)
    (member : entry ∈ (items.foldl (fun d (key, value) => d.insertOpt key value) d).entries) :
    entry ∈ d.entries ∨ (entry.1, some entry.2) ∈ items := by
  induction items generalizing d with
  | nil => exact .inl member
  | cons item rest ih =>
    rw [List.foldl_cons] at member
    rcases item with ⟨key, content⟩
    rcases ih _ member with old | later
    · cases content with
      | none => exact .inl old
      | some value =>
        rcases mem_insertEntry old with rfl | old
        · exact .inr List.mem_cons_self
        · exact .inl old
    · exact .inr (List.mem_cons_of_mem _ later)

theorem mem_ofEntries {entry : Entry} (member : entry ∈ (ofEntries items).entries) :
    (entry.1, some entry.2) ∈ items := by
  rcases mem_foldl_insertOpt empty member with none | found
  · cases none
  · exact found

/-! ## Looking up -/

theorem get?_eq_none {d : Dictionary} (absent : key ∉ d.keys) : d.get? key = none := by
  rw [get?, Option.map_eq_none_iff]
  exact find?_of_not_mem absent

theorem get?_of_mem {d : Dictionary} (distinct : d.keys.Nodup) (member : (key, value) ∈ d.entries) :
    d.get? key = some value := by
  rw [get?, find?_of_mem distinct member]
  rfl

/-- Under each key stands the value that was inserted with it, if there was one. -/
theorem get?_ofEntries {content : Option Value} (distinct : (items.map (·.1)).Nodup)
    (member : (key, content) ∈ items) : (ofEntries items).get? key = content := by
  cases content with
  | some value =>
    refine get?_of_mem (nodup_ofEntries items) ?_
    rw [entries_ofEntries distinct]
    exact mem_present.mpr member
  | none =>
    refine get?_eq_none fun among => ?_
    rcases List.mem_map.mp among with ⟨⟨name, value⟩, found, rfl⟩
    have hSame := eq_of_nodup_map distinct member (mem_ofEntries found) rfl
    cases congrArg Prod.snd hSame

theorem get?_ofEntries_of_not_mem (absent : key ∉ items.map (·.1)) :
    (ofEntries items).get? key = none := by
  refine get?_eq_none fun among => ?_
  rcases List.mem_map.mp among with ⟨entry, found, rfl⟩
  exact absent (List.mem_map.mpr ⟨_, mem_ofEntries found, rfl⟩)

section Views

variable {d : Dictionary}

theorem getBytes?_of_get? {content : Bytes} (found : d.get? key = some (.bytes content)) :
    d.getBytes? key = some content := by
  rw [getBytes?, found]
  rfl

theorem getInteger?_of_get? {content : Option Int64}
    (found : d.get? key = content.map Value.integer) : d.getInteger? key = content := by
  rw [getInteger?, found]
  cases content <;> rfl

theorem getList?_of_get? {content : List Value} (found : d.get? key = some (.list content)) :
    d.getList? key = some content := by
  rw [getList?, found]
  rfl

theorem getDict?_of_get? {content : Dictionary} (found : d.get? key = some content.toValue) :
    d.getDict? key = some content := by
  rw [getDict?, found]
  rfl

end Views

end Dictionary

/-! ## Values that the reader accepts -/

/-- The reader accepts a value at a depth, with all that is inside it. -/
def Sound (depth : Nat) (value : Value) : Prop :=
  ∀ node ∈ value.nodes depth, WithinLimits node ∧ node.2.keys.Nodup

section Sound

variable {depth : Nat} {key : Bytes}

theorem sound_bytes {content : Bytes} (shallow : depth ≤ 64)
    (short : content.length ≤ 2147483647) : Sound depth (.bytes content) := by
  intro node member
  rw [Value.nodes, List.mem_singleton] at member
  subst member
  refine ⟨⟨shallow, fun string only => ?_⟩, List.nodup_nil⟩
  rw [List.mem_singleton.mp only]
  exact short

theorem sound_integer (shallow : depth ≤ 64) (number : Int64) : Sound depth (.integer number) := by
  intro node member
  rw [Value.nodes, List.mem_singleton] at member
  subst member
  exact ⟨⟨shallow, fun string none => absurd none List.not_mem_nil⟩, List.nodup_nil⟩

theorem sound_list {items : List Value} (shallow : depth ≤ 64)
    (inside : ∀ item ∈ items, Sound (depth + 1) item) : Sound depth (.list items) := by
  intro node member
  rw [Value.nodes, List.mem_cons, mem_nodesOfItems] at member
  rcases member with rfl | ⟨item, among, within⟩
  · exact ⟨⟨shallow, fun string none => absurd none List.not_mem_nil⟩, List.nodup_nil⟩
  · exact inside item among node within

theorem sound_dict {d : Dictionary} (shallow : depth ≤ 64) (distinct : d.keys.Nodup)
    (inside : ∀ entry ∈ d.entries, entry.1.length ≤ 2147483647 ∧ Sound (depth + 1) entry.2) :
    Sound depth d.toValue := by
  intro node member
  rw [Dictionary.toValue, Value.nodes, List.mem_cons, mem_nodesOfEntries] at member
  rcases member with rfl | ⟨entry, among, within⟩
  · refine ⟨⟨shallow, fun key named => ?_⟩, distinct⟩
    rcases List.mem_map.mp named with ⟨entry, among, rfl⟩
    exact (inside entry among).1
  · exact (inside entry among).2 node within

/-- A key, and a value at the depth if there is one, that the reader accepts. -/
def SoundField (depth : Nat) (item : Bytes × Option Value) : Prop :=
  item.1.length ≤ 2147483647 ∧ ∀ value, item.2 = some value → Sound depth value

theorem soundField_none (short : key.length ≤ 2147483647) : SoundField depth (key, none) :=
  ⟨short, nofun⟩

theorem soundField_some {value : Value} (short : key.length ≤ 2147483647)
    (sound : Sound depth value) : SoundField depth (key, some value) := by
  refine ⟨short, fun other same => ?_⟩
  rw [← Option.some.inj same]
  exact sound

theorem soundField_map {α : Type} {content : Option α} {write : α → Value}
    (short : key.length ≤ 2147483647) (sound : ∀ a ∈ content, Sound depth (write a)) :
    SoundField depth (key, content.map write) := by
  cases content with
  | none => exact soundField_none short
  | some a => exact soundField_some short (sound a rfl)

theorem soundField_ite {empty : Bool} {value : Value} (short : key.length ≤ 2147483647)
    (sound : Sound depth value) : SoundField depth (key, if empty then none else some value) := by
  cases empty with
  | true => exact soundField_none short
  | false => exact soundField_some short sound

theorem sound_ofEntries {items : List (Bytes × Option Value)} (shallow : depth ≤ 64)
    (inside : ∀ item ∈ items, SoundField (depth + 1) item) :
    Sound depth (Dictionary.ofEntries items).toValue := by
  refine sound_dict shallow (Dictionary.nodup_ofEntries items) fun entry member => ?_
  have hItem := inside _ (Dictionary.mem_ofEntries member)
  exact ⟨hItem.1, hItem.2 entry.2 rfl⟩

end Sound

/-- A dictionary that the reader accepts is read back from its written form. -/
theorem decodeDictionary_encode {d : Dictionary} (sound : Sound 0 d.toValue) :
    decodeDictionary d.encode = .ok d := by
  rw [decodeDictionary_eq_ok_iff]
  rcases readsBack_decode d.toValue (fun node member => (sound node member).2) with
    ⟨-, read⟩ | ⟨exceeds, -⟩
  · exact read
  · exact absurd (fun node member => (sound node member).1) exceeds

end Bencode
end Kademlia
