import Kademlia.Sequence

namespace Kademlia

/-!
Lists in which one item changes, and lists of keys and values that serve as tables.
-/

section ModifyFirst

variable {α β : Type} {meets : α → Bool} {change : α → α} {items : List α}

/-- A projection that the change keeps is kept throughout. -/
theorem map_modifyFirst {project : α → β}
    (keeps : ∀ item, meets item = true → project (change item) = project item) :
    (modifyFirst meets change items).map project = items.map project := by
  induction items with
  | nil => rfl
  | cons item rest ih =>
    rw [modifyFirst]
    by_cases here : meets item = true
    · rw [if_pos here, List.map_cons, List.map_cons, keeps item here]
    · rw [if_neg here, List.map_cons, List.map_cons, ih]

/-- The change shows in a projection as a change of what is projected. -/
theorem map_modifyFirst_of_comp {project : α → β} {meets' : β → Bool} {change' : β → β}
    (same : ∀ item, meets' (project item) = meets item)
    (shows : ∀ item, project (change item) = change' (project item)) :
    (modifyFirst meets change items).map project =
      modifyFirst meets' change' (items.map project) := by
  induction items with
  | nil => rfl
  | cons item rest ih =>
    rw [modifyFirst, List.map_cons, modifyFirst, same]
    by_cases here : meets item = true
    · rw [if_pos here, if_pos here, List.map_cons, shows]
    · rw [if_neg here, if_neg here, List.map_cons, ih]

theorem mem_modifyFirst {item : α} (member : item ∈ modifyFirst meets change items) :
    item ∈ items ∨ ∃ old ∈ items, meets old = true ∧ item = change old := by
  induction items with
  | nil => exact .inl member
  | cons first rest ih =>
    rw [modifyFirst] at member
    by_cases here : meets first = true
    · rw [if_pos here, List.mem_cons] at member
      rcases member with rfl | later
      · exact .inr ⟨first, List.mem_cons_self, here, rfl⟩
      · exact .inl (List.mem_cons_of_mem _ later)
    · rw [if_neg here, List.mem_cons] at member
      rcases member with rfl | later
      · exact .inl List.mem_cons_self
      · rcases ih later with old | ⟨old, among, found, same⟩
        · exact .inl (List.mem_cons_of_mem _ old)
        · exact .inr ⟨old, List.mem_cons_of_mem _ among, found, same⟩

/-- If no two items agree in a projection, the one that is looked for by it changes and all others
stay. -/
theorem mem_modifyFirst_iff [DecidableEq β] {project : α → β} {key : β} {item : α}
    (distinct : (items.map project).Nodup) :
    item ∈ modifyFirst (fun item => project item = key) change items ↔
      (item ∈ items ∧ project item ≠ key) ∨
        ∃ old ∈ items, project old = key ∧ item = change old := by
  induction items with
  | nil => simp [modifyFirst]
  | cons first rest ih =>
    rcases List.nodup_cons.mp distinct with ⟨apart, later⟩
    have hApart : ∀ other ∈ rest, project other ≠ project first := by
      intro other member same
      exact apart (List.mem_map.mpr ⟨other, member, same⟩)
    rw [modifyFirst]
    by_cases here : project first = key
    · rw [if_pos (decide_eq_true here)]
      constructor
      · intro member
        rcases List.mem_cons.mp member with rfl | member
        · exact .inr ⟨first, List.mem_cons_self, here, rfl⟩
        · refine .inl ⟨List.mem_cons_of_mem _ member, ?_⟩
          rw [← here]
          exact hApart item member
      · rintro (⟨member, other⟩ | ⟨old, member, found, rfl⟩)
        · rcases List.mem_cons.mp member with rfl | member
          · exact absurd here other
          · exact List.mem_cons_of_mem _ member
        · rcases List.mem_cons.mp member with rfl | member
          · exact List.mem_cons_self
          · exact absurd (found.trans here.symm) (hApart old member)
    · rw [if_neg (fun found => here (of_decide_eq_true found)), List.mem_cons, ih later]
      constructor
      · rintro (rfl | ⟨member, other⟩ | ⟨old, member, found, same⟩)
        · exact .inl ⟨List.mem_cons_self, here⟩
        · exact .inl ⟨List.mem_cons_of_mem _ member, other⟩
        · exact .inr ⟨old, List.mem_cons_of_mem _ member, found, same⟩
      · rintro (⟨member, other⟩ | ⟨old, member, found, same⟩)
        · rcases List.mem_cons.mp member with rfl | member
          · exact .inl rfl
          · exact .inr (.inl ⟨member, other⟩)
        · rcases List.mem_cons.mp member with rfl | member
          · exact absurd found here
          · exact .inr (.inr ⟨old, member, found, same⟩)

/-- A change by which no item comes to count leaves no more that count. -/
theorem countP_modifyFirst_le {counts : α → Bool}
    (drops : ∀ item ∈ items, meets item = true → counts (change item) = true →
      counts item = true) :
    (modifyFirst meets change items).countP counts ≤ items.countP counts := by
  induction items with
  | nil => exact Nat.le_refl _
  | cons item rest ih =>
    rw [modifyFirst]
    by_cases here : meets item = true
    · rw [if_pos here, List.countP_cons, List.countP_cons]
      apply Nat.add_le_add_left
      split
      next counted => exact Nat.le_of_eq (if_pos (drops item List.mem_cons_self here counted)).symm
      next => exact Nat.zero_le _
    · rw [if_neg here, List.countP_cons, List.countP_cons]
      exact Nat.add_le_add_right (ih fun other member => drops other (List.mem_cons_of_mem _ member)) _

/-- If all items that can be meant count and there is one, the change leaves one less. -/
theorem countP_modifyFirst_lt {counts : α → Bool}
    (drops : ∀ item, meets item = true → counts (change item) = false)
    (all : ∀ item ∈ items, meets item = true → counts item = true)
    (some_meets : ∃ item ∈ items, meets item = true) :
    (modifyFirst meets change items).countP counts < items.countP counts := by
  induction items with
  | nil =>
    rcases some_meets with ⟨item, member, -⟩
    cases member
  | cons item rest ih =>
    rw [modifyFirst]
    by_cases here : meets item = true
    · rw [if_pos here, List.countP_cons, List.countP_cons, drops item here,
        all item List.mem_cons_self here]
      exact Nat.lt_succ_self _
    · rw [if_neg here, List.countP_cons, List.countP_cons]
      apply Nat.add_lt_add_right
      apply ih fun other member => all other (List.mem_cons_of_mem _ member)
      rcases some_meets with ⟨other, member, met⟩
      rcases List.mem_cons.mp member with rfl | behind
      · exact absurd met here
      · exact ⟨other, behind, met⟩

end ModifyFirst

/-- What is found least is one of the items. -/
theorem mem_of_firstLeast? {α : Type} {less : α → α → Bool} {items : List α} {least : α}
    (found : firstLeast? less items = some least) : least ∈ items := by
  cases items with
  | nil => cases found
  | cons first rest =>
    rcases Option.some.inj found with rfl
    clear found
    induction rest generalizing first with
    | nil => exact List.mem_singleton_self _
    | cons second rest ih =>
      rw [List.foldl_cons]
      split
      · exact List.mem_cons_of_mem _ (ih second)
      · rcases List.mem_cons.mp (ih first) with same | behind
        · rw [same]
          exact List.mem_cons_self
        · exact List.mem_cons_of_mem _ (List.mem_cons_of_mem _ behind)

/-- No item is less than the one that is found least, if not being less is transitive. -/
theorem not_less_of_firstLeast? {α : Type} {less : α → α → Bool} {items : List α} {least item : α}
    (asymm : ∀ a b, less a b = true → less b a = false)
    (trans : ∀ a b c, less a b = false → less b c = false → less a c = false)
    (found : firstLeast? less items = some least) (member : item ∈ items) :
    less item least = false := by
  have irrefl : ∀ a, less a a = false := by
    intro a
    cases same : less a a with
    | false => rfl
    | true => exact same.symm.trans (asymm a a same)
  cases items with
  | nil => cases member
  | cons first rest =>
    rcases Option.some.inj found with rfl
    clear found
    -- of two items in a row, the one that goes on is not less than the other
    induction rest generalizing first item with
    | nil =>
      rw [List.mem_singleton.mp member]
      exact irrefl first
    | cons second rest ih =>
      rw [List.foldl_cons]
      split
      next less_second =>
        rcases List.mem_cons.mp member with rfl | later
        · exact trans _ _ _ (asymm _ _ less_second) (ih second List.mem_cons_self)
        · exact ih second later
      next not_less =>
        rcases List.mem_cons.mp member with rfl | later
        · exact ih item List.mem_cons_self
        · rcases List.mem_cons.mp later with rfl | behind
          · exact trans _ _ _ (Bool.eq_false_iff.mpr not_less) (ih first List.mem_cons_self)
          · exact ih first (List.mem_cons_of_mem _ behind)

/-- What every step keeps, all of them together keep. -/
theorem foldl_keeps {α β γ : Type} {step : β → α → β} (project : β → γ)
    (keeps : ∀ start item, project (step start item) = project start) (start : β) (items : List α) :
    project (items.foldl step start) = project start := by
  induction items generalizing start with
  | nil => rfl
  | cons item items ih => rw [List.foldl_cons, ih, keeps]

/-- Items that do not agree in a projection are told apart by it. -/
theorem eq_of_nodup_map {α β : Type} {project : α → β} {items : List α} {a b : α}
    (distinct : (items.map project).Nodup) (first : a ∈ items) (second : b ∈ items)
    (same : project a = project b) : a = b := by
  induction items with
  | nil => cases first
  | cons item rest ih =>
    rcases List.nodup_cons.mp distinct with ⟨apart, later⟩
    rcases List.mem_cons.mp first with rfl | first_later
    · rcases List.mem_cons.mp second with rfl | second_later
      · rfl
      · exact absurd (List.mem_map.mpr ⟨b, second_later, same.symm⟩) apart
    · rcases List.mem_cons.mp second with rfl | second_later
      · exact absurd (List.mem_map.mpr ⟨a, first_later, same⟩) apart
      · exact ih later first_later second_later

/-- An item that is told apart by a projection is the only one that changes when it is looked for. -/
theorem modifyFirst_eq_map {α β : Type} [DecidableEq α] [DecidableEq β] {project : α → β}
    {change : α → α} {items : List α} {old : α} (distinct : (items.map project).Nodup)
    (member : old ∈ items) :
    modifyFirst (fun item => project item = project old) change items =
      items.map fun item => if item = old then change old else item := by
  induction items with
  | nil => rfl
  | cons first rest ih =>
    rcases List.nodup_cons.mp distinct with ⟨apart, later⟩
    rw [modifyFirst, List.map_cons]
    rcases List.mem_cons.mp member with rfl | behind
    · have hRest : (rest.map fun item => if item = old then change old else item) = rest := by
        refine (List.map_congr_left fun item among => ?_).trans (List.map_id _)
        refine if_neg fun same => apart ?_
        rw [← same]
        exact List.mem_map_of_mem among
      rw [if_pos (decide_eq_true rfl), if_pos rfl, hRest]
    · have hApart : project first ≠ project old := fun same =>
        apart (List.mem_map.mpr ⟨old, behind, same.symm⟩)
      rw [if_neg (fun same => hApart (of_decide_eq_true same)),
        if_neg (fun same => hApart (congrArg project same)), ih later behind]

section Find

variable {α β : Type} [DecidableEq β] {project : α → β} {items : List α} {a : α} {b : β}

/-- What is found by a projection is among the items, and has it. -/
theorem of_find?_eq (found : items.find? (fun item => project item = b) = some a) :
    a ∈ items ∧ project a = b := by
  have hMeets := List.find?_some found
  exact ⟨List.mem_of_find?_eq_some found, of_decide_eq_true hMeets⟩

theorem find?_of_not_mem (absent : b ∉ items.map project) :
    items.find? (fun item => project item = b) = none := by
  apply List.find?_eq_none.mpr
  intro item member here
  exact absent (List.mem_map.mpr ⟨item, member, of_decide_eq_true here⟩)

/-- An item that is told apart by a projection is found by it. -/
theorem find?_of_mem (distinct : (items.map project).Nodup) (member : a ∈ items) :
    items.find? (fun item => project item = project a) = some a := by
  cases found : items.find? (fun item => project item = project a) with
  | none =>
    have hOther := List.find?_eq_none.mp found a member
    exact absurd (decide_eq_true rfl) hOther
  | some other =>
    rcases of_find?_eq found with ⟨among, same⟩
    rw [eq_of_nodup_map distinct among member same]

end Find

/-- An item that is told apart by a projection is the only one that a filter by it takes out. -/
theorem perm_cons_filter_ne {α β : Type} [DecidableEq β] {project : α → β} {items : List α} {a : α}
    (distinct : (items.map project).Nodup) (member : a ∈ items) :
    items.Perm (a :: items.filter fun item => project item ≠ project a) := by
  induction items with
  | nil => cases member
  | cons item rest ih =>
    rcases List.nodup_cons.mp distinct with ⟨apart, later⟩
    rw [List.filter_cons]
    rcases List.mem_cons.mp member with rfl | behind
    · have hOthers : rest.filter (fun item => project item ≠ project a) = rest := by
        apply List.filter_eq_self.mpr
        intro other among
        apply decide_eq_true
        intro same
        exact apart (List.mem_map.mpr ⟨other, among, same⟩)
      rw [if_neg (by simp), hOthers]
    · have hApart : project item ≠ project a := fun same =>
        apart (List.mem_map.mpr ⟨a, behind, same.symm⟩)
      rw [if_pos (decide_eq_true hApart)]
      exact ((ih later behind).cons item).trans (.swap a item _)

/-- If one of several lists gets something more, so do all of them together. -/
theorem perm_flatten_modify {α : Type} {lists : List (List α)} {i : Nat} {list more : List α}
    {change : List α → List α} (place : lists[i]? = some list)
    (grows : (change list).Perm (more ++ list)) :
    (lists.modify i change).flatten.Perm (more ++ lists.flatten) := by
  induction lists generalizing i with
  | nil => cases place
  | cons first rest ih =>
    cases i with
    | zero =>
      rcases Option.some.inj place with rfl
      rw [List.modify_zero_cons, List.flatten_cons, List.flatten_cons, ← List.append_assoc]
      exact grows.append_right _
    | succ i =>
      rw [List.modify_succ_cons, List.flatten_cons, List.flatten_cons]
      have hRest := (ih (by simpa using place)).append_left first
      exact hRest.trans (List.perm_append_comm_assoc ..)

section Tables

variable {κ α : Type} [DecidableEq κ] {items : List (κ × α)} {key other : κ}

theorem lookup_modifyFirst (change : α → α) :
    (modifyFirst (fun item => item.1 = key) (fun (k, a) => (k, change a)) items).lookup other =
      if other = key then (items.lookup key).map change else items.lookup other := by
  induction items with
  | nil => simp [modifyFirst]
  | cons item rest ih =>
    rcases item with ⟨first, a⟩
    rw [modifyFirst]
    by_cases here : first = key
    · rw [if_pos (decide_eq_true here), here]
      by_cases same : other = key
      · rw [if_pos same, same, List.lookup_cons_self, List.lookup_cons_self, Option.map_some]
      · have hDifferent : (other == key) = false := beq_eq_false_iff_ne.mpr same
        rw [if_neg same, List.lookup_cons, List.lookup_cons, hDifferent]
    · rw [if_neg (fun found => here (of_decide_eq_true found)), List.lookup_cons, ih]
      have hHere : (key == first) = false := beq_eq_false_iff_ne.mpr (Ne.symm here)
      by_cases same : other = key
      · rw [if_pos same, if_pos same, same, List.lookup_cons, hHere]
      · rw [if_neg same, if_neg same, List.lookup_cons]

/-- Only what is found under the key has to change in a projection the same way. -/
theorem map_modifyFirst_of_lookup {β : Type} {project : κ × α → κ × β}
    {change : κ × α → κ × α} {change' : κ × β → κ × β} (keys : ∀ item, (project item).1 = item.1)
    (shows : ∀ a, items.lookup key = some a →
      project (change (key, a)) = change' (project (key, a))) :
    (modifyFirst (fun item => item.1 = key) change items).map project =
      modifyFirst (fun item => item.1 = key) change' (items.map project) := by
  induction items with
  | nil => rfl
  | cons item rest ih =>
    rcases item with ⟨first, a⟩
    rw [modifyFirst, List.map_cons, modifyFirst, keys]
    by_cases here : first = key
    · rw [here] at shows
      rw [if_pos (decide_eq_true here), if_pos (decide_eq_true here), List.map_cons, here,
        shows a List.lookup_cons_self]
    · rw [if_neg (fun found => here (of_decide_eq_true found)),
        if_neg (fun found => here (of_decide_eq_true found)), List.map_cons, ih]
      intro b found
      apply shows
      rw [List.lookup_cons, beq_eq_false_iff_ne.mpr (Ne.symm here)]
      exact found

/-- A projection is kept throughout if it is kept at what is found under the key. -/
theorem map_modifyFirst_of_found {β : Type} {project : κ × α → β} {change : κ × α → κ × α}
    (keeps : ∀ a, items.lookup key = some a → project (change (key, a)) = project (key, a)) :
    (modifyFirst (fun item => item.1 = key) change items).map project = items.map project := by
  induction items with
  | nil => rfl
  | cons item rest ih =>
    rcases item with ⟨first, a⟩
    rw [modifyFirst]
    by_cases here : first = key
    · rw [here] at keeps
      rw [if_pos (decide_eq_true here), List.map_cons, List.map_cons, here,
        keeps a List.lookup_cons_self]
    · rw [if_neg (fun found => here (of_decide_eq_true found)), List.map_cons, List.map_cons, ih]
      intro b found
      apply keeps
      rw [List.lookup_cons, beq_eq_false_iff_ne.mpr (Ne.symm here)]
      exact found

theorem lookup_of_mem {a : α} (distinct : (items.map (·.1)).Nodup) (member : (key, a) ∈ items) :
    items.lookup key = some a := by
  induction items with
  | nil => simp at member
  | cons item rest ih =>
    rcases item with ⟨first, b⟩
    rcases List.nodup_cons.mp distinct with ⟨apart, later⟩
    rcases List.mem_cons.mp member with same | behind
    · rcases Prod.mk.inj same with ⟨rfl, rfl⟩
      exact List.lookup_cons_self
    · have hApart : key ≠ first := fun same =>
        apart (List.mem_map.mpr ⟨(key, a), behind, same⟩)
      rw [List.lookup_cons, beq_eq_false_iff_ne.mpr hApart]
      exact ih later behind

theorem mem_of_lookup {a : α} (found : items.lookup key = some a) : (key, a) ∈ items := by
  rcases List.lookup_eq_some_iff.mp found with ⟨before, behind, entries, -⟩
  rw [entries]
  exact List.mem_append_right before List.mem_cons_self

theorem mem_keys_iff : key ∈ items.map (·.1) ↔ ∃ a, items.lookup key = some a := by
  induction items with
  | nil => simp
  | cons item rest ih =>
    rcases item with ⟨first, b⟩
    rw [List.map_cons, List.mem_cons, ih, List.lookup_cons]
    by_cases same : key = first
    · rw [same, beq_self_eq_true]
      exact iff_of_true (.inl rfl) ⟨b, rfl⟩
    · rw [beq_eq_false_iff_ne.mpr same]
      exact or_iff_right same

/-- If no key is there twice, what is entered under a key changes and all else stays. -/
theorem mem_modifyFirst_of_entered {a : α} {item : κ × α} (change : α → α)
    (distinct : (items.map (·.1)).Nodup) (entered : (key, a) ∈ items)
    (member : item ∈ modifyFirst (·.1 = key) (fun item => (item.1, change item.2)) items) :
    (item ∈ items ∧ item.1 ≠ key) ∨ item = (key, change a) := by
  refine ((mem_modifyFirst_iff distinct).mp member).imp_right ?_
  rintro ⟨old, before, same, rfl⟩
  rw [eq_of_nodup_map distinct before entered same]

omit [DecidableEq κ] in
theorem nodup_keys_append {a : α} (distinct : (items.map (·.1)).Nodup)
    (new : key ∉ items.map (·.1)) : ((items ++ [(key, a)]).map (·.1)).Nodup := by
  rw [List.map_append, List.map_singleton]
  exact (List.perm_append_singleton _ _).symm.nodup (List.nodup_cons.mpr ⟨new, distinct⟩)

omit [DecidableEq κ] in
/-- What is entered once is entered under one key. -/
theorem key_eq_of_count_le_one [DecidableEq α] {a : α} (few : (items.map (·.2)).count a ≤ 1)
    (first : (key, a) ∈ items) (second : (other, a) ∈ items) : key = other := by
  rcases List.append_of_mem first with ⟨before, after, rfl⟩
  simp only [List.map_append, List.map_cons, List.count_append, List.count_cons_self] at few
  have hBefore : a ∉ before.map (·.2) := List.count_eq_zero.mp (by omega)
  have hAfter : a ∉ after.map (·.2) := List.count_eq_zero.mp (by omega)
  rcases List.mem_append.mp second with early | rest
  · exact absurd (List.mem_map_of_mem early) hBefore
  · rcases List.mem_cons.mp rest with same | late
    · exact (Prod.mk.inj same).1.symm
    · exact absurd (List.mem_map_of_mem late) hAfter

theorem lookup_append_singleton (a : α) (absent : items.lookup key = none) :
    (items ++ [(key, a)]).lookup other = if other = key then some a else items.lookup other := by
  rw [List.lookup_append]
  by_cases same : other = key
  · rw [if_pos same, same, absent, List.lookup_cons_self, Option.none_or]
  · rw [if_neg same, List.lookup_cons, beq_eq_false_iff_ne.mpr same, List.lookup_nil,
      Option.or_none]

end Tables
end Kademlia
