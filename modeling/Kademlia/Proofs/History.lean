namespace Kademlia

/-!
Histories: lists of what has happened, the oldest first.  The place of an event tells it apart from
others of its kind, and what holds of a history is told event by event, each one by those before it.
-/

section History

variable {ε : Type} {history : List ε} {event start : ε} {ends : ε → Prop} {place : Nat}

/-- The event stands at the place, and none after it ends what it has begun. -/
def Lasts (history : List ε) (place : Nat) (start : ε) (ends : ε → Prop) : Prop :=
  history[place]? = some start ∧
    ∀ later > place, ∀ event, history[later]? = some event → ¬ ends event

/-- Every event is as it has to be after those before it. -/
def Throughout (fits : List ε → ε → Prop) (history : List ε) : Prop :=
  ∀ place event, history[place]? = some event → fits (history.take place) event

theorem getElem?_append_singleton (history : List ε) (event : ε) (place : Nat) :
    (history ++ [event])[place]? =
      if place = history.length then some event else history[place]? := by
  by_cases last : place = history.length
  · rw [if_pos last, last, List.getElem?_concat_length]
  · rw [if_neg last]
    by_cases before : place < history.length
    · exact List.getElem?_append_left before
    · have hBeyond : history.length < place := by omega
      rw [List.getElem?_eq_none (Nat.le_of_lt hBeyond)]
      apply List.getElem?_eq_none
      rw [List.length_append]
      exact hBeyond

/-- An event of which nothing is told adds nothing. -/
theorem filterMap_append_of_none {α : Type} {tell : ε → Option α} (silent : tell event = none) :
    (history ++ [event]).filterMap tell = history.filterMap tell := by
  rw [List.filterMap_append, List.filterMap_cons_none silent, List.filterMap_nil, List.append_nil]

theorem lt_length_of_getElem? (here : history[place]? = some event) : place < history.length :=
  (List.getElem?_eq_some_iff.mp here).1

/-- One more event begins something, or leaves what was begun before and is not ended by it. -/
theorem lasts_append : Lasts (history ++ [event]) place start ends ↔
    (place = history.length ∧ event = start) ∨ Lasts history place start ends ∧ ¬ ends event := by
  unfold Lasts
  rw [getElem?_append_singleton]
  constructor
  · rintro ⟨here, lasting⟩
    by_cases last : place = history.length
    · rw [if_pos last] at here
      exact .inl ⟨last, Option.some.inj here⟩
    · rw [if_neg last] at here
      have hBefore := lt_length_of_getElem? here
      refine .inr ⟨⟨here, ?_⟩, ?_⟩
      · intro later after other there
        apply lasting later after other
        rw [getElem?_append_singleton, if_neg (Nat.ne_of_lt (lt_length_of_getElem? there))]
        exact there
      · apply lasting history.length hBefore event
        rw [getElem?_append_singleton, if_pos rfl]
  · rintro (⟨last, rfl⟩ | ⟨⟨here, lasting⟩, goes_on⟩)
    · refine ⟨if_pos last, ?_⟩
      intro later after other there
      rw [getElem?_append_singleton, if_neg (by omega)] at there
      have hBefore := lt_length_of_getElem? there
      omega
    · have hBefore := lt_length_of_getElem? here
      refine ⟨(if_neg (Nat.ne_of_lt hBefore)).trans here, ?_⟩
      intro later after other there
      rw [getElem?_append_singleton] at there
      split at there
      · rw [← Option.some.inj there]
        exact goes_on
      · exact lasting later after other there

/-- What has ended by now does not last: an event that would end it stands no later. -/
theorem Lasts.place_le {later : Nat} (lasts : Lasts history place start ends)
    (there : history[later]? = some event) (ended : ends event) : later ≤ place :=
  Nat.le_of_not_lt fun after => lasts.2 later after event there ended

theorem throughout_nil (fits : List ε → ε → Prop) : Throughout fits [] := by
  intro place event here
  cases here

theorem Throughout.append {fits : List ε → ε → Prop} (before : Throughout fits history)
    (new : fits history event) : Throughout fits (history ++ [event]) := by
  intro place other here
  rw [getElem?_append_singleton] at here
  split at here
  next last =>
    rw [last, List.take_left, ← Option.some.inj here]
    exact new
  next =>
    rw [List.take_append_of_le_length (Nat.le_of_lt (lt_length_of_getElem? here))]
    exact before place other here

end History
end Kademlia
