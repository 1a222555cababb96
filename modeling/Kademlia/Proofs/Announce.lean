import Kademlia.Announce
import Kademlia.Proofs.Sequence

namespace Kademlia
namespace Announce

/-!
How an announcement goes on.  Every round chooses nodes that were unused before, so there are no
more rounds than nodes; and when no node is left to choose, the announcement waits for an answer or
is over.
-/

variable {a : Announce} {target : AnnounceTarget} {targets : List AnnounceTarget}
  {contact : Contact} {state : TargetState} {own : NodeId} {n : Nat}

/-! ## Choosing -/

theorem contacts_choose (n : Nat) (targets : List AnnounceTarget) :
    (choose n targets).2.map (·.contact) = targets.map (·.contact) := by
  fun_induction choose n targets with
  | case1 => rfl
  | case2 => rfl
  | case3 n target rest unused chosen left same ih =>
    rw [same] at ih
    rw [List.map_cons, List.map_cons, ih]
  | case4 n target rest used chosen left same ih =>
    rw [same] at ih
    rw [List.map_cons, List.map_cons, ih]

theorem chosen_sublist (n : Nat) (targets : List AnnounceTarget) :
    List.Sublist (choose n targets).1 targets := by
  fun_induction choose n targets with
  | case1 => exact List.nil_sublist _
  | case2 => exact List.Sublist.refl _
  | case3 n target rest unused chosen left same ih =>
    rw [same] at ih
    exact ih.cons_cons _
  | case4 n target rest used chosen left same ih =>
    rw [same] at ih
    exact ih.cons _

/-- A node was left as it is, or chosen. -/
theorem mem_choose_cases (member : target ∈ (choose n targets).2) :
    target ∈ targets ∨
      target.state = .picked ∧ target.contact ∈ (choose n targets).1.map (·.contact) := by
  fun_induction choose n targets with
  | case1 => exact .inl member
  | case2 => exact .inl member
  | case3 n first rest unused chosen left same ih =>
    rw [same] at ih
    rcases List.mem_cons.mp member with rfl | behind
    · exact .inr ⟨rfl, List.mem_cons_self⟩
    · rcases ih behind with old | ⟨picked, chosen⟩
      · exact .inl (List.mem_cons_of_mem _ old)
      · exact .inr ⟨picked, List.mem_cons_of_mem _ chosen⟩
  | case4 n first rest used chosen left same ih =>
    rw [same] at ih
    rcases List.mem_cons.mp member with rfl | behind
    · exact .inl List.mem_cons_self
    · rcases ih behind with old | picked
      · exact .inl (List.mem_cons_of_mem _ old)
      · exact .inr picked

/-- Only unused nodes are chosen. -/
theorem mem_choose_of_used (member : target ∈ targets) (used : target.state ≠ .unused) :
    target ∈ (choose n targets).2 := by
  fun_induction choose n targets with
  | case1 => exact member
  | case2 => exact member
  | case3 n first rest unused chosen left same ih =>
    rw [same] at ih
    rcases List.mem_cons.mp member with rfl | behind
    · exact absurd unused used
    · exact List.mem_cons_of_mem _ (ih behind)
  | case4 n first rest _ chosen left same ih =>
    rw [same] at ih
    rcases List.mem_cons.mp member with rfl | behind
    · exact List.mem_cons_self
    · exact List.mem_cons_of_mem _ (ih behind)

theorem picked_of_chosen (member : target ∈ (choose n targets).1) :
    ∃ other ∈ (choose n targets).2, other.contact = target.contact ∧ other.state = .picked := by
  fun_induction choose n targets with
  | case1 => cases member
  | case2 => cases member
  | case3 n first rest unused chosen left same ih =>
    rw [same] at ih
    rcases List.mem_cons.mp member with rfl | behind
    · exact ⟨_, List.mem_cons_self, rfl, rfl⟩
    · rcases ih behind with ⟨other, found, picked⟩
      exact ⟨other, List.mem_cons_of_mem _ found, picked⟩
  | case4 n first rest used chosen left same ih =>
    rw [same] at ih
    rcases ih member with ⟨other, found, picked⟩
    exact ⟨other, List.mem_cons_of_mem _ found, picked⟩

theorem countP_choose (n : Nat) (targets : List AnnounceTarget) :
    (choose n targets).2.countP (·.state = .unused) + (choose n targets).1.length =
      targets.countP (·.state = .unused) := by
  fun_induction choose n targets with
  | case1 => rfl
  | case2 => rfl
  | case3 n first rest unused chosen left same ih =>
    rw [same] at ih
    have hRest : left.countP (·.state = .unused) + chosen.length =
        rest.countP (·.state = .unused) := ih
    rw [List.countP_cons, List.countP_cons, List.length_cons, decide_eq_true unused]
    simp only [reduceCtorEq, decide_false, Bool.false_eq_true, if_false, if_true]
    omega
  | case4 n first rest used chosen left same ih =>
    rw [same] at ih
    rw [List.countP_cons, List.countP_cons, decide_eq_false used]
    exact ih

/-- Nobody is chosen only if nobody is to be, or all have been used. -/
theorem used_of_chosen_eq_nil (none_chosen : (choose n targets).1 = []) (some_wanted : 0 < n) :
    targets.countP (·.state = .unused) = 0 := by
  fun_induction choose n targets with
  | case1 => exact absurd some_wanted (Nat.lt_irrefl 0)
  | case2 => rfl
  | case3 n first rest unused chosen left same ih => cases none_chosen
  | case4 n first rest used chosen left same ih =>
    rw [same] at ih
    rw [List.countP_cons, decide_eq_false used]
    exact ih none_chosen some_wanted

/-! ## Picking -/

theorem contacts_picked (a : Announce) (own : NodeId) : (a.pick own).1.map (·.1) =
    (choose (wanted - a.count TargetState.isActive) a.targets).1.map (·.contact) := by
  unfold pick
  rw [List.map_map]
  rfl

theorem contacts_pick (a : Announce) (own : NodeId) :
    (a.pick own).2.targets.map (·.contact) = a.targets.map (·.contact) :=
  contacts_choose _ _

theorem nodup_picked (distinct : (a.targets.map (·.contact)).Nodup) :
    ((a.pick own).1.map (·.1)).Nodup := by
  rw [contacts_picked]
  exact List.Nodup.sublist ((chosen_sublist _ _).map _) distinct

theorem mem_pick_cases (member : target ∈ (a.pick own).2.targets) :
    target ∈ a.targets ∨
      target.state = .picked ∧ target.contact ∈ (a.pick own).1.map (·.1) := by
  rw [contacts_picked]
  exact mem_choose_cases member

theorem mem_pick_of_used (member : target ∈ a.targets) (used : target.state ≠ .unused) :
    target ∈ (a.pick own).2.targets :=
  mem_choose_of_used member used

theorem state_of_picked (picked : contact ∈ (a.pick own).1.map (·.1)) :
    ∃ target ∈ (a.pick own).2.targets, target.contact = contact ∧ target.state = .picked := by
  rw [contacts_picked] at picked
  rcases List.mem_map.mp picked with ⟨target, chosen, rfl⟩
  exact picked_of_chosen chosen

theorem count_pick_lt (some_picked : (a.pick own).1 ≠ []) :
    (a.pick own).2.count (· = .unused) < a.count (· = .unused) := by
  have hCount := countP_choose (wanted - a.count TargetState.isActive) a.targets
  have hPicked : 0 < ((a.pick own).1.map (·.1)).length := by
    rw [List.length_map]
    exact List.length_pos_iff.mpr some_picked
  rw [contacts_picked, List.length_map] at hPicked
  change (choose _ a.targets).2.countP (·.state = .unused) < a.targets.countP (·.state = .unused)
  omega

/-! ## Answers -/

theorem mem_setState (distinct : (a.targets.map (·.contact)).Nodup) :
    target ∈ (a.setState contact state).targets ↔
      (target ∈ a.targets ∧ target.contact ≠ contact) ∨
        ∃ old ∈ a.targets, old.contact = contact ∧ target = { old with state } :=
  mem_modifyFirst_iff distinct

theorem contacts_setState (a : Announce) (contact : Contact) (state : TargetState) :
    (a.setState contact state).targets.map (·.contact) = a.targets.map (·.contact) :=
  map_modifyFirst fun _ _ => rfl

theorem count_unused_setState_le (used : state ≠ .unused) :
    (a.setState contact state).count (· = .unused) ≤ a.count (· = .unused) := by
  apply countP_modifyFirst_le
  intro _ _ _ unused
  exact absurd (of_decide_eq_true unused) used

/-! ## Progress -/

theorem settled_of_completed (completed : a.progress = .completed) (member : target ∈ a.targets) :
    target.state.isInFlight = false := by
  unfold progress at completed
  by_cases waits : 0 < a.count TargetState.isInFlight
  · rw [if_pos waits] at completed
    cases completed
  · have hNone := List.countP_eq_zero.mp (Nat.eq_zero_of_not_pos waits) target member
    exact Bool.eq_false_iff.mpr hNone

/-- With nobody left to choose, an announcement goes on only if an answer is to come. -/
theorem inFlight_of_ongoing (ongoing : a.progress = .ongoing)
    (none_chosen : (a.pick own).1 = []) : ∃ target ∈ a.targets, target.state.isInFlight = true := by
  unfold progress at ongoing
  by_cases waits : 0 < a.count TargetState.isInFlight
  · exact List.countP_pos_iff.mp waits
  · rw [if_neg waits] at ongoing
    by_cases ended : wanted ≤ a.accepted ∨ a.count (· = .unused) = 0
    · rw [if_pos ended] at ongoing
      cases ongoing
    · have hNone := List.countP_eq_zero.mp (Nat.eq_zero_of_not_pos waits)
      have hActive : a.count TargetState.isActive = a.accepted := by
        apply List.countP_congr
        intro target member
        have hSettled := Bool.eq_false_iff.mpr (hNone target member)
        unfold TargetState.isActive
        rw [hSettled, Bool.false_or, beq_iff_eq, decide_eq_true_iff]
      have hChosen : (choose (wanted - a.count TargetState.isActive) a.targets).1 = [] := by
        unfold pick at none_chosen
        exact List.map_eq_nil_iff.mp none_chosen
      have hUnused := used_of_chosen_eq_nil hChosen (by omega)
      exact absurd (.inr hUnused) ended

end Announce
end Kademlia
