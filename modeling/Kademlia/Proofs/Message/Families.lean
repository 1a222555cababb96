import Kademlia.Message.Reader
import Mathlib.Data.List.Forall2

namespace Kademlia

open Bencode (Dictionary Value)

/-!
# The families that a query asks for

The list of wanted families is read from front to back, but it stands for a set: a family is asked
for if some item names it, in upper or in lower case, and it does not matter where, how often and
among what else (`ofArguments_iff_named`).
-/

/-! ## Words in two cases -/

/-- Two octets are equal, or they are one letter of the ASCII alphabet in its two cases. -/
def SameLetter (a b : UInt8) : Prop :=
  a = b ∨ (0x41 ≤ a ∧ a ≤ 0x5a ∧ b = a + 0x20) ∨ (0x41 ≤ b ∧ b ≤ 0x5a ∧ a = b + 0x20)

/-- Two strings differ in nothing but the case of letters of the ASCII alphabet. -/
def SameWord (a b : Bytes) : Prop :=
  List.Forall₂ SameLetter a b

theorem sameLetter_iff {a b : UInt8} : SameLetter a b ↔ asciiLower a = asciiLower b := by
  simp only [SameLetter, asciiLower, Bool.and_eq_true, decide_eq_true_eq, UInt8.le_iff_toNat_le,
    ← UInt8.toNat_inj, UInt8.toNat_add]
  have hFirst := a.toNat_lt
  have hSecond := b.toNat_lt
  split <;> split <;> simp at * <;> omega

theorem sameWord_iff {a b : Bytes} : SameWord a b ↔ a.map asciiLower = b.map asciiLower := by
  rw [← List.forall₂_eq_eq_eq, List.forall₂_map_left_iff, List.forall₂_map_right_iff]
  exact ⟨.imp fun _ _ => sameLetter_iff.mp, .imp fun _ _ => sameLetter_iff.mpr⟩

namespace Want

/-- An item of the list is a word, in whichever case. -/
def Names (word : String) (item : Value) : Prop :=
  ∃ name, item = .bytes name ∧ SameWord name (Bytes.ofString word)

/-- The word is among the items. -/
def Named (word : String) (items : List Value) : Prop :=
  ∃ item ∈ items, Names word item

/-- An item that names neither family. -/
def Foreign (item : Value) : Prop :=
  ¬ Names "n4" item ∧ ¬ Names "n6" item

/-- What comes of a list by putting its items into another order, by repeating some of them and by
adding foreign ones, time and again. -/
inductive Varied (items : List Value) : List Value → Prop where
  | same : Varied items items
  | permuted {others next : List Value} :
    Varied items others → others.Perm next → Varied items next
  | repeated {others : List Value} {item : Value} :
    Varied items others → item ∈ others → Varied items (item :: others)
  | padded {others : List Value} {item : Value} :
    Varied items others → Foreign item → Varied items (item :: others)

/-- The families asked for, each for itself. -/
def ofFamilies : (v4 v6 : Bool) → Option Want
  | true, true => some both
  | true, false => some v4
  | false, true => some v6
  | false, false => none

/-- Whether an item is a word, as the reader sees it. -/
def isWord (word : String) : Value → Bool
  | .bytes name => name.map asciiLower = Bytes.ofString word
  | _ => false

variable {word : String} {item : Value} {items others : List Value} {arguments : Dictionary}

/-! ## One item -/

theorem isWord_iff (lower : (Bytes.ofString word).map asciiLower = Bytes.ofString word) :
    isWord word item = true ↔ Names word item := by
  cases item with
  | bytes name =>
    rw [isWord, decide_eq_true_eq]
    constructor
    · intro same
      exact ⟨name, rfl, sameWord_iff.mpr (same.trans lower.symm)⟩
    · rintro ⟨_, told, same⟩
      cases told
      exact (sameWord_iff.mp same).trans lower
  | integer | list | dict =>
    refine iff_of_false Bool.false_ne_true ?_
    rintro ⟨_, impossible, -⟩
    cases impossible

/-- An item adds the family that it names to those asked for so far. -/
theorem add_ofFamilies (v4 v6 : Bool) (item : Value) :
    add (ofFamilies v4 v6) item = ofFamilies (v4 || isWord "n4" item) (v6 || isWord "n6" item) := by
  cases item with
  | bytes name =>
    have hApart : Bytes.ofString "n4" ≠ Bytes.ofString "n6" := by decide
    rw [add.eq_def, isWord, isWord]
    dsimp only
    by_cases fourth : name.map asciiLower = Bytes.ofString "n4"
    · rw [fourth, if_pos rfl, decide_eq_true rfl, decide_eq_false hApart]
      cases v4 <;> cases v6 <;> rfl
    · rw [if_neg fourth, decide_eq_false fourth]
      by_cases sixth : name.map asciiLower = Bytes.ofString "n6"
      · rw [if_pos sixth, decide_eq_true sixth]
        cases v4 <;> cases v6 <;> rfl
      · rw [if_neg sixth, decide_eq_false sixth, Bool.or_false, Bool.or_false]
  | integer | list | dict =>
    change ofFamilies v4 v6 = ofFamilies (v4 || false) (v6 || false)
    rw [Bool.or_false, Bool.or_false]

/-! ## The whole list -/

theorem foldl_add (v4 v6 : Bool) (items : List Value) :
    items.foldl add (ofFamilies v4 v6) =
      ofFamilies (v4 || items.any (isWord "n4")) (v6 || items.any (isWord "n6")) := by
  induction items generalizing v4 v6 with
  | nil => rw [List.any_nil, List.any_nil, Bool.or_false, Bool.or_false, List.foldl_nil]
  | cons item items ih =>
    rw [List.foldl_cons, add_ofFamilies, ih, List.any_cons, List.any_cons, Bool.or_assoc,
      Bool.or_assoc]

theorem ofArguments_eq (listed : arguments.get? Key.want.bytes = some (.list items)) :
    ofArguments arguments =
      ofFamilies (items.any (isWord "n4")) (items.any (isWord "n6")) := by
  rw [ofArguments, Dictionary.getList?, listed]
  exact foldl_add false false items

theorem any_isWord_iff (lower : (Bytes.ofString word).map asciiLower = Bytes.ofString word) :
    items.any (isWord word) = true ↔ Named word items := by
  rw [List.any_eq_true, Named]
  exact exists_congr fun item => and_congr_right fun _ => isWord_iff lower

theorem any_n4_iff : items.any (isWord "n4") = true ↔ Named "n4" items :=
  any_isWord_iff (by decide)

theorem any_n6_iff : items.any (isWord "n6") = true ↔ Named "n6" items :=
  any_isWord_iff (by decide)

/-- Foreign items apart, a list and its variation have the same items. -/
theorem Varied.named_iff (varied : Varied items others)
    (family : ∀ {item}, Foreign item → ¬ Names word item) :
    Named word others ↔ Named word items := by
  induction varied with
  | same => rfl
  | permuted _ order ih =>
    rw [← ih]
    exact exists_congr fun item => and_congr_left fun _ => order.mem_iff.symm
  | repeated _ member ih =>
    rw [← ih, Named, List.exists_mem_cons_iff]
    exact or_iff_right_of_imp fun named => ⟨_, member, named⟩
  | padded _ foreign ih =>
    rw [← ih, Named, List.exists_mem_cons_iff]
    exact or_iff_right (family foreign)

/-- A list of wanted families asks for both if both are named in it, for one if that one is and the
other is not, and for nothing if neither is.  Names may be in either case, and what is no name counts
for nothing.  So the list may be put into another order, items may be repeated and foreign ones
added: it asks for the same. -/
theorem ofArguments_iff_named (listed : arguments.get? Key.want.bytes = some (.list items)) :
    (ofArguments arguments = some both ↔ Named "n4" items ∧ Named "n6" items) ∧
    (ofArguments arguments = some v4 ↔ Named "n4" items ∧ ¬ Named "n6" items) ∧
    (ofArguments arguments = some v6 ↔ ¬ Named "n4" items ∧ Named "n6" items) ∧
    (ofArguments arguments = none ↔ ¬ Named "n4" items ∧ ¬ Named "n6" items) ∧
    ∀ (variation : Dictionary) (others : List Value),
      variation.get? Key.want.bytes = some (.list others) → Varied items others →
        ofArguments variation = ofArguments arguments := by
  have hRead := ofArguments_eq listed
  rw [← any_n4_iff, ← any_n6_iff, hRead]
  refine ⟨?_, ?_, ?_, ?_, fun variation others other varied => ?_⟩
  · cases items.any (isWord "n4") <;> cases items.any (isWord "n6") <;> decide
  · cases items.any (isWord "n4") <;> cases items.any (isWord "n6") <;> decide
  · cases items.any (isWord "n4") <;> cases items.any (isWord "n6") <;> decide
  · cases items.any (isWord "n4") <;> cases items.any (isWord "n6") <;> decide
  · have hFourth : others.any (isWord "n4") = items.any (isWord "n4") := by
      rw [Bool.eq_iff_iff, any_n4_iff, any_n4_iff]
      exact varied.named_iff And.left
    have hSixth : others.any (isWord "n6") = items.any (isWord "n6") := by
      rw [Bool.eq_iff_iff, any_n6_iff, any_n6_iff]
      exact varied.named_iff And.right
    rw [ofArguments_eq other, hFourth, hSixth]

/-- A capital letter does not matter, and a family named inside another list is not asked for. -/
theorem ofArguments_of_capital :
    let items : List Value := [.bytes [0x4e, 0x36], .integer 4, .bytes [0x6e, 0x35]]
    let others : List Value := .list [.bytes [0x6e, 0x34]] :: .bytes [0x4e, 0x36] :: items
    let arguments : Dictionary := ⟨[(Key.want.bytes, .list items)]⟩
    let variation : Dictionary := ⟨[(Key.id.bytes, .bytes []), (Key.want.bytes, .list others)]⟩
    arguments.get? Key.want.bytes = some (.list items) ∧ ofArguments arguments = some v6 ∧
      variation.get? Key.want.bytes = some (.list others) ∧ Varied items others ∧
      ofArguments variation = ofArguments arguments := by
  intro items others arguments variation
  have hListed : arguments.get? Key.want.bytes = some (.list items) := by decide
  have hOther : variation.get? Key.want.bytes = some (.list others) := by decide
  have hVaried : Varied items others := by
    have hForeign : Foreign (.list [.bytes [0x6e, 0x34]]) :=
      ⟨fun ⟨_, told, _⟩ => (nomatch told), fun ⟨_, told, _⟩ => (nomatch told)⟩
    exact .padded (.repeated .same List.mem_cons_self) hForeign
  have hNamed : ¬ Named "n4" items ∧ Named "n6" items := by
    rw [← any_n4_iff, ← any_n6_iff]
    decide
  rcases ofArguments_iff_named hListed with ⟨-, -, sixth, -, varies⟩
  exact ⟨hListed, sixth.mpr hNamed, hOther, hVaried, varies variation others hOther hVaried⟩

end Want
end Kademlia
