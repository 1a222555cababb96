import Kademlia.Bencode.Order
import Mathlib.Order.RelClasses

namespace Kademlia
namespace Bencode

/-!
# The order of values

Values of different kinds compare by their kinds, and lists and dictionaries by the first of their
items that differ.  Said without a procedure, this is the relation `Value.Precedes`, and comparing
two values decides it.  What is required of the comparison of two values is required of the values
inside them first, so each law is proved by induction on the first value: the other way round the
comparison is reversed, only equal values compare as equal, and what precedes a value precedes all
that come behind it (`totallyOrdered_compare`).
-/

/-! ## Item by item -/

section Items

variable {α : Type} {cmp : α → α → Ordering} {r : α → α → Prop} {as bs cs : List α}

theorem compareLex_swap (swap : ∀ a ∈ as, ∀ b, cmp b a = (cmp a b).swap) :
    List.compareLex cmp bs as = (List.compareLex cmp as bs).swap := by
  induction as generalizing bs with
  | nil => cases bs <;> rfl
  | cons a as ih =>
    cases bs with
    | nil => rfl
    | cons b bs =>
      rw [List.compareLex_cons_cons, List.compareLex_cons_cons, Ordering.swap_then,
        swap a List.mem_cons_self, ih fun item inside => swap item (List.mem_cons_of_mem a inside)]

theorem compareLex_eq_iff (exact : ∀ a ∈ as, ∀ b, cmp a b = .eq ↔ a = b) :
    List.compareLex cmp as bs = .eq ↔ as = bs := by
  induction as generalizing bs with
  | nil => cases bs <;> simp [List.compareLex]
  | cons a as ih =>
    cases bs with
    | nil => simp [List.compareLex]
    | cons b bs =>
      rw [List.compareLex_cons_cons, Ordering.then_eq_eq, exact a List.mem_cons_self,
        ih fun item inside => exact item (List.mem_cons_of_mem a inside), List.cons.injEq]

theorem compareLex_lt_iff (exact : ∀ a b, cmp a b = .eq ↔ a = b)
    (before : ∀ a ∈ as, ∀ b, cmp a b = .lt ↔ r a b) :
    List.compareLex cmp as bs = .lt ↔ List.Lex r as bs := by
  induction as generalizing bs with
  | nil => cases bs <;> simp [List.compareLex]
  | cons a as ih =>
    cases bs with
    | nil => simp [List.compareLex]
    | cons b bs =>
      rw [List.compareLex_cons_cons, Ordering.then_eq_lt, exact, before a List.mem_cons_self,
        ih fun item inside => before item (List.mem_cons_of_mem a inside), List.cons_lex_cons_iff]

theorem lex_trans (trans : ∀ a ∈ as, ∀ b c, r a b → r b c → r a c) (first : List.Lex r as bs)
    (second : List.Lex r bs cs) : List.Lex r as cs := by
  induction first generalizing cs with
  | nil => cases second <;> exact .nil
  | rel before =>
    cases second with
    | rel behind => exact .rel (trans _ List.mem_cons_self _ _ before behind)
    | cons => exact .rel before
  | cons _ ih =>
    cases second with
    | rel behind => exact .rel behind
    | cons second =>
      exact .cons (ih (fun item inside => trans item (List.mem_cons_of_mem _ inside)) second)

/-- What has a proper beginning comes behind it. -/
theorem lex_append (as : List α) (next : α) (rest : List α) :
    List.Lex r as (as ++ next :: rest) := by
  induction as with
  | nil => exact .nil
  | cons _ _ ih => exact .cons ih

end Items

/-! ## Byte strings -/

theorem compareBytes_eq (a b : Bytes) : compareBytes a b = List.compareLex compare a b := by
  induction a generalizing b with
  | nil => cases b <;> rfl
  | cons x a ih =>
    cases b with
    | nil => rfl
    | cons y b => rw [compareBytes, List.compareLex_cons_cons, ih]

theorem compareBytes_swap (a b : Bytes) : compareBytes b a = (compareBytes a b).swap := by
  rw [compareBytes_eq, compareBytes_eq]
  exact Std.OrientedCmp.eq_swap

theorem compareBytes_eq_iff {a b : Bytes} : compareBytes a b = .eq ↔ a = b := by
  rw [compareBytes_eq]
  exact Std.LawfulEqCmp.compare_eq_iff_eq

theorem compareBytes_lt_iff {a b : Bytes} : compareBytes a b = .lt ↔ List.Lex (· < ·) a b := by
  rw [compareBytes_eq]
  exact compareLex_lt_iff (fun _ _ => Std.LawfulEqOrd.compare_eq_iff_eq)
    fun _ _ _ => Std.compare_eq_lt

theorem bytes_lex_trans {a b c : Bytes} (first : List.Lex (· < ·) a b)
    (second : List.Lex (· < ·) b c) : List.Lex (· < ·) a c :=
  lex_trans (fun _ _ _ _ => UInt8.lt_trans) first second

/-! ## Values -/

namespace Value

variable {a b c : Value}

/-- What holds of a value if it holds of the values inside holds of all values. -/
theorem nested {motive : Value → Prop} (bytes : ∀ content, motive (.bytes content))
    (integer : ∀ number, motive (.integer number))
    (list : ∀ items, (∀ item ∈ items, motive item) → motive (.list items))
    (dict : ∀ entries : List Entry, (∀ entry ∈ entries, motive entry.2) → motive (.dict entries))
    (value : Value) : motive value :=
  @Value.rec motive (fun items => ∀ item ∈ items, motive item)
    (fun entries => ∀ entry ∈ entries, motive entry.2) (fun entry => motive entry.2)
    bytes integer list dict
    (List.forall_mem_nil _) (fun _ _ first rest => List.forall_mem_cons.mpr ⟨first, rest⟩)
    (List.forall_mem_nil _) (fun _ _ first rest => List.forall_mem_cons.mpr ⟨first, rest⟩)
    (fun _ _ inside => inside) value

/-- The place of a kind of values among the kinds. -/
def rank : Value → Nat
  | bytes _ => 0
  | integer _ => 1
  | list _ => 2
  | dict _ => 3

/-- One value comes before another: by its kind, or within a kind by its content.  Entries of
dictionaries compare by their keys first. -/
inductive Precedes : Value → Value → Prop
  | kind {a b : Value} : a.rank < b.rank → Precedes a b
  | bytes {a b : Bytes} : List.Lex (· < ·) a b → Precedes (.bytes a) (.bytes b)
  | integer {m n : Int64} : m < n → Precedes (.integer m) (.integer n)
  | list {as bs : List Value} : List.Lex Precedes as bs → Precedes (.list as) (.list bs)
  | dict {as bs : List Entry} : List.Lex (Prod.Lex (List.Lex (· < ·)) Precedes) as bs →
    Precedes (.dict as) (.dict bs)

/-- Compares two entries of dictionaries. -/
def cmpEntry (x y : Entry) : Ordering :=
  (compareBytes x.1 y.1).then (cmp x.2 y.2)

theorem cmpItems_eq (as bs : List Value) : cmpItems as bs = List.compareLex cmp as bs := by
  induction as generalizing bs with
  | nil => cases bs <;> rfl
  | cons a as ih =>
    cases bs with
    | nil => rfl
    | cons b bs => rw [cmpItems, List.compareLex_cons_cons, ih]

theorem cmpEntries_eq (as bs : List Entry) :
    cmpEntries as bs = List.compareLex cmpEntry as bs := by
  induction as generalizing bs with
  | nil => cases bs <;> rfl
  | cons a as ih =>
    cases bs with
    | nil => rfl
    | cons b bs => rw [cmpEntries, List.compareLex_cons_cons, ih, cmpEntry, Ordering.then_assoc]

theorem cmp_of_rank_ne (apart : a.rank ≠ b.rank) : cmp a b = compare a.rank b.rank := by
  cases a <;> cases b <;> simp_all [rank, cmp] <;> rfl

theorem cmp_swap (a b : Value) : cmp b a = (cmp a b).swap := by
  induction a using nested generalizing b with
  | bytes content =>
    cases b with
    | bytes other => exact compareBytes_swap content other
    | integer | list | dict => rfl
  | integer number =>
    cases b with
    | integer other =>
      rw [cmp, cmp]
      exact Std.OrientedCmp.eq_swap
    | bytes | list | dict => rfl
  | list items ih =>
    cases b with
    | list others =>
      rw [cmp, cmp, cmpItems_eq, cmpItems_eq]
      exact compareLex_swap ih
    | bytes | integer | dict => rfl
  | dict entries ih =>
    cases b with
    | dict others =>
      rw [cmp, cmp, cmpEntries_eq, cmpEntries_eq]
      refine compareLex_swap fun entry inside other => ?_
      rw [cmpEntry, cmpEntry, Ordering.swap_then, compareBytes_swap entry.1, ih entry inside]
    | bytes | integer | list => rfl

theorem cmp_eq_iff : cmp a b = .eq ↔ a = b := by
  induction a using nested generalizing b with
  | bytes content =>
    cases b with
    | bytes other => rw [cmp, compareBytes_eq_iff, bytes.injEq]
    | integer | list | dict => exact iff_of_false nofun nofun
  | integer number =>
    cases b with
    | integer other => rw [cmp, Std.LawfulEqOrd.compare_eq_iff_eq, integer.injEq]
    | bytes | list | dict => exact iff_of_false nofun nofun
  | list items ih =>
    cases b with
    | list others =>
      rw [cmp, cmpItems_eq, compareLex_eq_iff fun item inside _ => ih item inside, list.injEq]
    | bytes | integer | dict => exact iff_of_false nofun nofun
  | dict entries ih =>
    cases b with
    | dict others =>
      rw [cmp, cmpEntries_eq, compareLex_eq_iff, dict.injEq]
      intro entry inside other
      rw [cmpEntry, Ordering.then_eq_eq, compareBytes_eq_iff, ih entry inside, Prod.ext_iff]
    | bytes | integer | list => exact iff_of_false nofun nofun

theorem cmpEntry_eq_iff {x y : Entry} : cmpEntry x y = .eq ↔ x = y := by
  rw [cmpEntry, Ordering.then_eq_eq, compareBytes_eq_iff, cmp_eq_iff, Prod.ext_iff]

/-! ## Which value comes before another -/

theorem cmp_lt_iff_of_rank_ne (apart : a.rank ≠ b.rank) : cmp a b = .lt ↔ Precedes a b := by
  rw [cmp_of_rank_ne apart, Nat.compare_eq_lt]
  constructor
  · exact .kind
  · rintro (before | _ | _ | _ | _)
    · exact before
    all_goals exact absurd rfl apart

theorem precedes_bytes_iff {x y : Bytes} :
    Precedes (.bytes x) (.bytes y) ↔ List.Lex (· < ·) x y := by
  constructor
  · rintro (same | before)
    · exact absurd same (Nat.lt_irrefl _)
    · exact before
  · exact .bytes

theorem precedes_integer_iff {m n : Int64} : Precedes (.integer m) (.integer n) ↔ m < n := by
  constructor
  · rintro (same | _ | before)
    · exact absurd same (Nat.lt_irrefl _)
    · exact before
  · exact .integer

theorem precedes_list_iff {as bs : List Value} :
    Precedes (.list as) (.list bs) ↔ List.Lex Precedes as bs := by
  constructor
  · rintro (same | _ | _ | before)
    · exact absurd same (Nat.lt_irrefl _)
    · exact before
  · exact .list

theorem precedes_dict_iff {as bs : List Entry} : Precedes (.dict as) (.dict bs) ↔
    List.Lex (Prod.Lex (List.Lex (· < ·)) Precedes) as bs := by
  constructor
  · rintro (same | _ | _ | _ | before)
    · exact absurd same (Nat.lt_irrefl _)
    · exact before
  · exact .dict

/-- Comparing two values decides which one comes before the other. -/
theorem cmp_lt_iff : cmp a b = .lt ↔ Precedes a b := by
  induction a using nested generalizing b with
  | bytes content =>
    cases b with
    | bytes other => rw [cmp, compareBytes_lt_iff, precedes_bytes_iff]
    | integer | list | dict => exact cmp_lt_iff_of_rank_ne nofun
  | integer number =>
    cases b with
    | integer other => rw [cmp, Std.compare_eq_lt, precedes_integer_iff]
    | bytes | list | dict => exact cmp_lt_iff_of_rank_ne nofun
  | list items ih =>
    cases b with
    | list others =>
      rw [cmp, cmpItems_eq, precedes_list_iff]
      exact compareLex_lt_iff (fun _ _ => cmp_eq_iff) fun item inside _ => ih item inside
    | bytes | integer | dict => exact cmp_lt_iff_of_rank_ne nofun
  | dict entries ih =>
    cases b with
    | dict others =>
      rw [cmp, cmpEntries_eq, precedes_dict_iff]
      refine compareLex_lt_iff (fun _ _ => cmpEntry_eq_iff) fun entry inside other => ?_
      rw [cmpEntry, Ordering.then_eq_lt, compareBytes_eq_iff, compareBytes_lt_iff, ih entry inside,
        Prod.lex_def]
    | bytes | integer | list => exact cmp_lt_iff_of_rank_ne nofun

theorem Precedes.rank_le (before : Precedes a b) : a.rank ≤ b.rank := by
  cases before with
  | kind earlier => exact Nat.le_of_lt earlier
  | bytes | integer | list | dict => exact Nat.le_refl _

theorem entry_lex_trans {x y z : Entry}
    (trans : ∀ v w, Precedes x.2 v → Precedes v w → Precedes x.2 w)
    (first : Prod.Lex (List.Lex (· < ·)) Precedes x y)
    (second : Prod.Lex (List.Lex (· < ·)) Precedes y z) :
    Prod.Lex (List.Lex (· < ·)) Precedes x z := by
  rw [Prod.lex_def] at first second ⊢
  rcases first with keys | ⟨same, values⟩
  · rcases second with further | ⟨same, -⟩
    · exact .inl (bytes_lex_trans keys further)
    · exact .inl (same ▸ keys)
  · rw [same]
    exact second.imp_right (And.imp_right (trans _ _ values))

theorem Precedes.trans (first : Precedes a b) (second : Precedes b c) : Precedes a c := by
  induction a using nested generalizing b c with
  | bytes content =>
    cases first with
    | kind earlier => exact .kind (Nat.lt_of_lt_of_le earlier second.rank_le)
    | bytes before =>
      cases second with
      | kind later => exact .kind later
      | bytes behind => exact .bytes (bytes_lex_trans before behind)
  | integer number =>
    cases first with
    | kind earlier => exact .kind (Nat.lt_of_lt_of_le earlier second.rank_le)
    | integer before =>
      cases second with
      | kind later => exact .kind later
      | integer behind => exact .integer (Int64.lt_trans before behind)
  | list items ih =>
    cases first with
    | kind earlier => exact .kind (Nat.lt_of_lt_of_le earlier second.rank_le)
    | list before =>
      cases second with
      | kind later => exact .kind later
      | list behind =>
        exact .list (lex_trans (fun item inside _ _ => ih item inside) before behind)
  | dict entries ih =>
    cases first with
    | kind earlier => exact .kind (Nat.lt_of_lt_of_le earlier second.rank_le)
    | dict before =>
      cases second with
      | kind later => exact .kind later
      | dict behind =>
        refine .dict (lex_trans (fun entry inside _ _ => ?_) before behind)
        exact entry_lex_trans fun _ _ => ih entry inside

instance : Std.TransOrd Value where
  eq_swap := cmp_swap _ _
  isLE_trans {a b c} first second := by
    rw [Ordering.isLE_iff_eq_lt_or_eq_eq] at first second ⊢
    rcases first with before | same
    · rcases second with behind | same
      · exact .inl (cmp_lt_iff.mpr ((cmp_lt_iff.mp before).trans (cmp_lt_iff.mp behind)))
      · rw [← cmp_eq_iff.mp same]
        exact .inl before
    · rw [cmp_eq_iff.mp same]
      exact second

instance : Std.LawfulEqOrd Value where
  compare_self := cmp_eq_iff.mpr rfl
  eq_of_compare := cmp_eq_iff.mp

/-- Values are totally ordered.  Byte strings come before integers, integers before lists and lists
before dictionaries; byte strings compare octet by octet, lists item by item and dictionaries entry
by entry in the order of their entries, and what continues a byte string or a list comes behind
it. -/
theorem totallyOrdered_compare :
    (∀ a b : Value,
      compare b a = (compare a b).swap ∧
      (compare a b = .eq ↔ a = b) ∧
      (compare a b = .lt ↔ Precedes a b) ∧
      ∀ c, (compare a b).isLE → (compare b c).isLE → (compare a c).isLE) ∧
    (∀ (a : Bytes) (next : UInt8) (rest : Bytes),
      compare (Value.bytes a) (.bytes (a ++ next :: rest)) = .lt) ∧
    ∀ (items : List Value) (next : Value) (rest : List Value),
      compare (Value.list items) (.list (items ++ next :: rest)) = .lt := by
  refine ⟨fun a b => ⟨Std.OrientedCmp.eq_swap, Std.LawfulEqOrd.compare_eq_iff_eq, cmp_lt_iff,
    fun c => Std.TransCmp.isLE_trans⟩, fun a next rest => ?_, fun items next rest => ?_⟩
  · exact cmp_lt_iff.mpr (.bytes (lex_append a next rest))
  · exact cmp_lt_iff.mpr (.list (lex_append items next rest))

/-- Two dictionaries with the same key, and a third with a key that continues it. -/
theorem totallyOrdered_compare_of_dicts :
    let first : Value := .dict [([0x61], .list [.integer (-1)])]
    let second : Value := .dict [([0x61], .list [.integer (-1), .bytes []])]
    let third : Value := .dict [([0x61, 0x00], .bytes [])]
    (compare first second).isLE ∧ (compare second third).isLE ∧ (compare first third).isLE := by
  intro first second third
  have hFirst : (compare first second).isLE := by decide +kernel
  have hSecond : (compare second third).isLE := by decide +kernel
  exact ⟨hFirst, hSecond, (totallyOrdered_compare.1 first second).2.2.2 third hFirst hSecond⟩

end Value
end Bencode
end Kademlia
