namespace Kademlia

/-!
Lists in which one item is singled out: the first that meets a condition, or the first that is
least by a comparison.
-/

variable {α : Type}

/-- Changes the first item that meets a condition. -/
def modifyFirst (meets : α → Bool) (change : α → α) : List α → List α
  | [] => []
  | item :: rest => if meets item then change item :: rest else item :: modifyFirst meets change rest

/-- The first of the least items by a strict comparison. -/
def firstLeast? (less : α → α → Bool) : List α → Option α
  | [] => none
  | item :: rest => some (rest.foldl (fun least next => if less next least then next else least) item)

@[simp]
theorem length_modifyFirst (meets : α → Bool) (change : α → α) (items : List α) :
    (modifyFirst meets change items).length = items.length := by
  induction items with
  | nil => rfl
  | cons item rest ih => by_cases h : meets item <;> simp [modifyFirst, h, ih]

/-- A table without the entries under a key. -/
theorem lookup_filter_ne {κ : Type} [DecidableEq κ] {items : List (κ × α)} {key other : κ} :
    (items.filter (fun item => item.1 ≠ key)).lookup other =
      if other = key then none else items.lookup other := by
  induction items with
  | nil => simp
  | cons item rest ih =>
    rcases item with ⟨first, a⟩
    rw [List.filter_cons]
    by_cases here : first = key
    · rw [if_neg (by simp [here]), ih, List.lookup_cons, here]
      by_cases same : other = key
      · rw [if_pos same, if_pos same]
      · have hDifferent : (other == key) = false := beq_eq_false_iff_ne.mpr same
        rw [if_neg same, if_neg same, hDifferent]
    · rw [if_pos (by simp [here]), List.lookup_cons, ih, List.lookup_cons]
      by_cases same : other = key
      · have hHere : (other == first) = false := by
          rw [same]
          exact beq_eq_false_iff_ne.mpr (Ne.symm here)
        rw [if_pos same, if_pos same, hHere]
      · rw [if_neg same, if_neg same]

end Kademlia
