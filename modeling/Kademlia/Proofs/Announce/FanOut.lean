import Kademlia.Proofs.Announce
import Kademlia.Proofs.History

namespace Kademlia
namespace Announce

/-!
# How an announcement is carried out

Nodes are picked in turn, asked, and answer or not, in any order; those that fail make way for the
next.  The moves that were made tell all there is to know: which nodes are tried, which of them are
awaited, and which have accepted (`Fits`).  As long as every node that is picked is asked or has
failed before it was, and gives at most one answer, the nodes tried are the first ones of the list,
no more than eight are in use at a time, and the announcement is over when it should be.
-/

/-- What is done in the course of an announcement. -/
inductive Move where
  | picked (contacts : List Contact)
  | sent (contact : Contact) (id : TransactionId)
  | replied (contact : Contact) (success : Bool)
deriving DecidableEq

namespace Move

/-- The nodes that are picked. -/
def picks : Move → List Contact
  | .picked contacts => contacts
  | _ => []

/-- The node that is asked. -/
def asks : Move → Option Contact
  | .sent contact _ => some contact
  | _ => none

/-- The node whose outcome is known, and whether it has accepted. -/
def settles : Move → Option (Contact × Bool)
  | .replied contact success => some (contact, success)
  | _ => none

end Move

/-- All nodes that were picked, in their order. -/
def tried (moves : List Move) : List Contact :=
  moves.flatMap Move.picks

/-- All nodes that were asked. -/
def asked (moves : List Move) : List Contact :=
  moves.filterMap Move.asks

/-- All outcomes. -/
def replies (moves : List Move) : List (Contact × Bool) :=
  moves.filterMap Move.settles

/-- The nodes whose outcome is known. -/
def answered (moves : List Move) : List Contact :=
  (replies moves).map (·.1)

/-- The nodes that were picked and whose outcome is still to come. -/
def awaited (moves : List Move) : List Contact :=
  (tried moves).filter fun contact => !(answered moves).contains contact

/-- The nodes that have accepted. -/
def accepting (moves : List Move) : List Contact :=
  ((replies moves).filter (·.2)).map (·.1)

/-- The node was picked, and nothing has become of that yet. -/
def Unsent (moves : List Move) (contact : Contact) : Prop :=
  contact ∈ tried moves ∧ contact ∉ asked moves ∧ contact ∉ answered moves

/-- The moves that lead to an announcement: every node that is picked is asked or has failed, and every
node that is asked answers once at most. -/
inductive Run (infoHash : InfoHash) (targets : List (Contact × Bytes)) (port : Option UInt16) :
    List Move → Announce → Prop
  | start : Run infoHash targets port [] (start infoHash targets port)
  | pick {moves : List Move} {a : Announce} (run : Run infoHash targets port moves a)
      (own : NodeId) :
      Run infoHash targets port (moves ++ [.picked ((a.pick own).1.map (·.1))]) (a.pick own).2
  | sent {moves : List Move} {a : Announce} {contact : Contact}
      (run : Run infoHash targets port moves a) (unsent : Unsent moves contact)
      (id : TransactionId) :
      Run infoHash targets port (moves ++ [.sent contact id]) (a.sent contact id)
  | failed {moves : List Move} {a : Announce} {contact : Contact}
      (run : Run infoHash targets port moves a) (unsent : Unsent moves contact) :
      Run infoHash targets port (moves ++ [.replied contact false]) (a.onReply contact false)
  | replied {moves : List Move} {a : Announce} {contact : Contact}
      (run : Run infoHash targets port moves a) (sent : contact ∈ asked moves)
      (unanswered : contact ∉ answered moves) (success : Bool) :
      Run infoHash targets port (moves ++ [.replied contact success]) (a.onReply contact success)

/-- How an announcement to the nodes stands after the moves. -/
structure FannedOut (targets : List (Contact × Bytes)) (moves : List Move) (a : Announce) :
    Prop where
  active : a.count TargetState.isActive ≤ wanted
  once : (tried moves).Nodup
  first : tried moves <+: targets.map (·.1)
  accepted : a.accepted = (replies moves).countP (·.2)
  few : a.accepted ≤ wanted
  inFlight : a.count TargetState.isInFlight = (awaited moves).length
  /-- If no node is left to pick, an answer is to come or nothing is left to do. -/
  idle : ∀ own, (a.pick own).1 = [] → awaited moves ≠ [] ∨ a.progress = .completed
  completed : a.progress = .completed ↔
    awaited moves = [] ∧ (a.accepted = wanted ∨ tried moves = targets.map (·.1))

variable {a : Announce} {target : AnnounceTarget} {targets : List (Contact × Bytes)}
  {contact : Contact} {state : TargetState} {moves : List Move} {move : Move} {n : Nat}
  {used fresh : List AnnounceTarget}

/-! ## One more move -/

theorem tried_append (moves : List Move) (move : Move) :
    tried (moves ++ [move]) = tried moves ++ move.picks := by
  unfold tried
  rw [List.flatMap_append, List.flatMap_singleton]

theorem mem_asked_append :
    contact ∈ asked (moves ++ [move]) ↔ contact ∈ asked moves ∨ move.asks = some contact := by
  unfold asked
  simp

theorem mem_replies_append {reply : Contact × Bool} :
    reply ∈ replies (moves ++ [move]) ↔ reply ∈ replies moves ∨ move.settles = some reply := by
  unfold replies
  simp

theorem mem_answered_iff :
    contact ∈ answered moves ↔ ∃ success, (contact, success) ∈ replies moves := by
  unfold answered
  rw [List.mem_map]
  constructor
  · rintro ⟨⟨_, success⟩, member, rfl⟩
    exact ⟨success, member⟩
  · rintro ⟨success, member⟩
    exact ⟨_, member, rfl⟩

theorem mem_accepting_iff : contact ∈ accepting moves ↔ (contact, true) ∈ replies moves := by
  unfold accepting
  rw [List.mem_map]
  constructor
  · rintro ⟨⟨_, success⟩, member, rfl⟩
    rcases List.mem_filter.mp member with ⟨among, positive⟩
    cases positive
    exact among
  · intro member
    exact ⟨_, List.mem_filter.mpr ⟨member, rfl⟩, rfl⟩

theorem mem_awaited_iff :
    contact ∈ awaited moves ↔ contact ∈ tried moves ∧ contact ∉ answered moves := by
  unfold awaited
  rw [List.mem_filter, Bool.not_eq_true', ← Bool.not_eq_true, List.contains_iff_mem]

/-! ## What the moves say of a node -/

/-- The state is the one that the moves have brought the node to. -/
def Fits (moves : List Move) (contact : Contact) : TargetState → Prop
  | .unused => contact ∉ tried moves
  | .picked => Unsent moves contact
  | .pending id => .sent contact id ∈ moves ∧ contact ∈ tried moves ∧ contact ∉ answered moves
  | .success => (contact, true) ∈ replies moves
  | .failure => (contact, false) ∈ replies moves

/-- The move is about other nodes. -/
def Move.Spares (move : Move) (contact : Contact) : Prop :=
  contact ∉ move.picks ∧ move.asks ≠ some contact ∧
    ∀ success, move.settles ≠ some (contact, success)

theorem mem_tried_spared (spared : move.Spares contact) :
    contact ∈ tried (moves ++ [move]) ↔ contact ∈ tried moves := by
  rw [tried_append, List.mem_append, or_iff_left spared.1]

theorem mem_replies_spared (spared : move.Spares contact) {success : Bool} :
    (contact, success) ∈ replies (moves ++ [move]) ↔ (contact, success) ∈ replies moves := by
  rw [mem_replies_append, or_iff_left (spared.2.2 success)]

theorem mem_answered_spared (spared : move.Spares contact) :
    contact ∈ answered (moves ++ [move]) ↔ contact ∈ answered moves := by
  simp only [mem_answered_iff, mem_replies_spared spared]

theorem Fits.spared (fits : Fits moves contact state) (spared : move.Spares contact) :
    Fits (moves ++ [move]) contact state := by
  have hTried := @mem_tried_spared contact moves move spared
  have hAnswered := @mem_answered_spared contact moves move spared
  cases state with
  | unused => exact mt hTried.mp fits
  | picked =>
    rcases fits with ⟨picked, unasked, unanswered⟩
    refine ⟨hTried.mpr picked, ?_, mt hAnswered.mp unanswered⟩
    rw [mem_asked_append, or_iff_left spared.2.1]
    exact unasked
  | pending id =>
    rcases fits with ⟨sent, picked, unanswered⟩
    exact ⟨List.mem_append_left _ sent, hTried.mpr picked, mt hAnswered.mp unanswered⟩
  | success => exact (mem_replies_spared spared).mpr fits
  | failure => exact (mem_replies_spared spared).mpr fits

/-- What holds of an announcement and the moves that have led to it. -/
structure Tracked (targets : List (Contact × Bytes)) (moves : List Move) (a : Announce) : Prop where
  contacts : a.targets.map (·.contact) = targets.map (·.1)
  first : tried moves <+: targets.map (·.1)
  fits : ∀ target ∈ a.targets, Fits moves target.contact target.state
  askedTried : ∀ contact ∈ asked moves, contact ∈ tried moves
  answeredTried : ∀ contact ∈ answered moves, contact ∈ tried moves
  once : (answered moves).Nodup
  active : a.count TargetState.isActive ≤ wanted

namespace Tracked

theorem unused_iff (tracked : Tracked targets moves a) (member : target ∈ a.targets) :
    target.state = .unused ↔ target.contact ∉ tried moves := by
  have hFits := tracked.fits target member
  constructor
  · intro unused
    rw [unused] at hFits
    exact hFits
  · intro untried
    cases hState : target.state with
    | unused => rfl
    | picked =>
      rw [hState] at hFits
      exact absurd hFits.1 untried
    | pending id =>
      rw [hState] at hFits
      exact absurd hFits.2.1 untried
    | success =>
      rw [hState] at hFits
      exact absurd (tracked.answeredTried _ (mem_answered_iff.mpr ⟨true, hFits⟩)) untried
    | failure =>
      rw [hState] at hFits
      exact absurd (tracked.answeredTried _ (mem_answered_iff.mpr ⟨false, hFits⟩)) untried

theorem isInFlight_iff (tracked : Tracked targets moves a) (member : target ∈ a.targets) :
    target.state.isInFlight = true ↔ target.contact ∈ awaited moves := by
  have hFits := tracked.fits target member
  rw [mem_awaited_iff]
  cases hState : target.state with
  | unused =>
    rw [hState] at hFits
    exact iff_of_false Bool.false_ne_true fun awaited => hFits awaited.1
  | picked =>
    rw [hState] at hFits
    exact iff_of_true rfl ⟨hFits.1, hFits.2.2⟩
  | pending id =>
    rw [hState] at hFits
    exact iff_of_true rfl hFits.2
  | success =>
    rw [hState] at hFits
    exact iff_of_false Bool.false_ne_true fun awaited => awaited.2 (mem_answered_iff.mpr ⟨_, hFits⟩)
  | failure =>
    rw [hState] at hFits
    exact iff_of_false Bool.false_ne_true fun awaited => awaited.2 (mem_answered_iff.mpr ⟨_, hFits⟩)

theorem success_iff (tracked : Tracked targets moves a) (member : target ∈ a.targets) :
    target.state = .success ↔ target.contact ∈ accepting moves := by
  rw [mem_accepting_iff]
  constructor
  · intro success
    have hFits := tracked.fits target member
    rw [success] at hFits
    exact hFits
  · intro accepted
    have hFits := tracked.fits target member
    have hAnswered : target.contact ∈ answered moves := mem_answered_iff.mpr ⟨_, accepted⟩
    have hTried := tracked.answeredTried _ hAnswered
    cases hState : target.state with
    | unused =>
      rw [hState] at hFits
      exact absurd hTried hFits
    | picked =>
      rw [hState] at hFits
      exact absurd hAnswered hFits.2.2
    | pending id =>
      rw [hState] at hFits
      exact absurd hAnswered hFits.2.2
    | success => rfl
    | failure =>
      -- a node gives one answer only
      rw [hState] at hFits
      have hSame := eq_of_nodup_map tracked.once hFits accepted rfl
      cases (Prod.mk.inj hSame).2

/-- The nodes that were tried stand before the others. -/
theorem split (tracked : Tracked targets moves a) (distinct : (targets.map (·.1)).Nodup) :
    ∃ used fresh, a.targets = used ++ fresh ∧ used.map (·.contact) = tried moves ∧
      (∀ target ∈ used, target.state ≠ .unused) ∧ ∀ target ∈ fresh, target.state = .unused := by
  rcases tracked.first with ⟨rest, whole⟩
  rcases List.map_eq_append_iff.mp (tracked.contacts.trans whole.symm) with
    ⟨used, fresh, parts, tried, untried⟩
  rw [← whole] at distinct
  refine ⟨used, fresh, parts, tried, fun target member => ?_, fun target member => ?_⟩
  · intro unused
    apply (tracked.unused_iff (parts ▸ List.mem_append_left _ member)).mp unused
    rw [← tried]
    exact List.mem_map_of_mem member
  · rw [tracked.unused_iff (parts ▸ List.mem_append_right _ member)]
    intro again
    exact (List.nodup_append.mp distinct).2.2 _ again _ (untried ▸ List.mem_map_of_mem member) rfl

end Tracked

/-! ## Picking -/

theorem choose_append_of_used (used_up : ∀ target ∈ used, target.state ≠ .unused) (n : Nat)
    (rest : List AnnounceTarget) :
    choose n (used ++ rest) = ((choose n rest).1, used ++ (choose n rest).2) := by
  induction used with
  | nil => rfl
  | cons target used ih =>
    cases n with
    | zero => simp only [choose]
    | succ n =>
      rw [List.cons_append, choose, if_neg (used_up target List.mem_cons_self),
        ih fun other member => used_up other (List.mem_cons_of_mem _ member)]
      rfl

theorem choose_of_unused (unused : ∀ target ∈ fresh, target.state = .unused) (n : Nat) :
    choose n fresh =
      (fresh.take n, (fresh.take n).map ({ · with state := .picked }) ++ fresh.drop n) := by
  induction fresh generalizing n with
  | nil => cases n <;> rfl
  | cons target fresh ih =>
    cases n with
    | zero => rfl
    | succ n =>
      rw [choose, if_pos (unused target List.mem_cons_self),
        ih fun other member => unused other (List.mem_cons_of_mem _ member)]
      rfl

theorem length_chosen_le (n : Nat) (targets : List AnnounceTarget) :
    (choose n targets).1.length ≤ n := by
  fun_induction choose n targets with
  | case1 => exact Nat.le_refl 0
  | case2 => exact Nat.zero_le _
  | case3 n first rest unused chosen left same ih =>
    rw [same] at ih
    exact Nat.succ_le_succ ih
  | case4 n first rest used chosen left same ih =>
    rw [same] at ih
    exact ih

/-- Every node that is chosen is active from then on. -/
theorem active_choose (n : Nat) (targets : List AnnounceTarget) :
    (choose n targets).2.countP (·.state.isActive) =
      targets.countP (·.state.isActive) + (choose n targets).1.length := by
  fun_induction choose n targets with
  | case1 => rfl
  | case2 => rfl
  | case3 n first rest unused chosen left same ih =>
    rw [same] at ih
    have hRest : left.countP (·.state.isActive) =
        rest.countP (·.state.isActive) + chosen.length := ih
    have hFirst : first.state.isActive = false := by
      rw [unused]
      rfl
    have hPicked : TargetState.isActive .picked = true := rfl
    rw [List.countP_cons, List.countP_cons, List.length_cons, hFirst, hPicked, hRest]
    rfl
  | case4 n first rest used chosen left same ih =>
    rw [same] at ih
    have hRest : left.countP (·.state.isActive) =
        rest.countP (·.state.isActive) + chosen.length := ih
    rw [List.countP_cons, List.countP_cons, hRest]
    dsimp only
    omega

/-- The first unused nodes are picked, and nothing else changes. -/
theorem pick_of_split (parts : a.targets = used ++ fresh)
    (used_up : ∀ target ∈ used, target.state ≠ .unused)
    (unused : ∀ target ∈ fresh, target.state = .unused) (own : NodeId) :
    ∃ n, (a.pick own).1.map (·.1) = (fresh.take n).map (·.contact) ∧
      (a.pick own).2.targets =
        used ++ ((fresh.take n).map ({ · with state := .picked }) ++ fresh.drop n) := by
  have hChoose := choose_append_of_used used_up (wanted - a.count TargetState.isActive) fresh
  rw [choose_of_unused unused, ← parts] at hChoose
  refine ⟨wanted - a.count TargetState.isActive, ?_, ?_⟩
  · rw [contacts_picked, hChoose]
  · exact congrArg (·.2) hChoose

theorem active_pick_le (active : a.count TargetState.isActive ≤ wanted) (own : NodeId) :
    (a.pick own).2.count TargetState.isActive ≤ wanted := by
  have hCount := active_choose (wanted - a.count TargetState.isActive) a.targets
  have hChosen := length_chosen_le (wanted - a.count TargetState.isActive) a.targets
  calc (a.pick own).2.count TargetState.isActive
      = a.count TargetState.isActive +
          (choose (wanted - a.count TargetState.isActive) a.targets).1.length := hCount
    _ ≤ a.count TargetState.isActive + (wanted - a.count TargetState.isActive) :=
        Nat.add_le_add_left hChosen _
    _ = wanted := Nat.add_sub_cancel' active

theorem answered_append_of_none (silent : move.settles = none) :
    answered (moves ++ [move]) = answered moves :=
  congrArg (List.map Prod.fst) (filterMap_append_of_none silent)

theorem Tracked.pick (tracked : Tracked targets moves a) (distinct : (targets.map (·.1)).Nodup)
    (own : NodeId) :
    Tracked targets (moves ++ [.picked ((a.pick own).1.map (·.1))]) (a.pick own).2 := by
  rcases tracked.split distinct with ⟨used, fresh, parts, hTried, usedUp, unused⟩
  rcases pick_of_split parts usedUp unused own with ⟨n, hPicked, hTargets⟩
  have hContacts := contacts_pick a own
  have hActive := active_pick_le tracked.active own
  rw [hPicked]
  generalize hMove : Move.picked ((fresh.take n).map (·.contact)) = move
  have hPicks : move.picks = (fresh.take n).map (·.contact) := by rw [← hMove]; rfl
  have hAsks : move.asks = none := by rw [← hMove]; rfl
  have hSettles : move.settles = none := by rw [← hMove]; rfl
  have hAnswered : answered (moves ++ [move]) = answered moves := answered_append_of_none hSettles
  have hAsked : asked (moves ++ [move]) = asked moves := filterMap_append_of_none hAsks
  have hNow : tried (moves ++ [move]) = tried moves ++ (fresh.take n).map (·.contact) := by
    rw [tried_append, hPicks]
  have hDistinct : (used.map (·.contact) ++ ((fresh.take n).map (·.contact) ++
      (fresh.drop n).map (·.contact))).Nodup := by
    rw [← List.map_append, List.take_append_drop, ← List.map_append, ← parts, tracked.contacts]
    exact distinct
  have hSpared : ∀ contact ∉ (fresh.take n).map (·.contact), move.Spares contact := by
    intro contact another
    rw [Move.Spares, hPicks, hAsks, hSettles]
    exact ⟨another, nofun, nofun⟩
  rcases List.nodup_append.mp hDistinct with ⟨_, hFresh, hApart⟩
  rcases List.nodup_append.mp hFresh with ⟨_, _, hBehind⟩
  refine ⟨hContacts.trans tracked.contacts, ?_, ?_, ?_, ?_, hAnswered ▸ tracked.once, hActive⟩
  · refine ⟨(fresh.drop n).map (·.contact), ?_⟩
    rw [hNow, ← hTried, List.append_assoc, ← List.map_append, List.take_append_drop,
      ← List.map_append, ← parts, tracked.contacts]
  · intro target member
    rw [hTargets] at member
    rcases List.mem_append.mp member with old | member
    · refine (tracked.fits target (parts ▸ List.mem_append_left _ old)).spared (hSpared _ ?_)
      intro picked
      exact hApart _ (List.mem_map_of_mem old) _ (List.mem_append_left _ picked) rfl
    rcases List.mem_append.mp member with chosen | left
    · rcases List.mem_map.mp chosen with ⟨target, among, rfl⟩
      have hMember : target ∈ a.targets :=
        parts ▸ List.mem_append_right _ (List.mem_of_mem_take among)
      have hUntried := (tracked.unused_iff hMember).mp (unused _ (List.mem_of_mem_take among))
      refine ⟨?_, ?_, ?_⟩
      · rw [hNow]
        exact List.mem_append_right _ (List.mem_map.mpr ⟨target, among, rfl⟩)
      · rw [hAsked]
        exact mt (tracked.askedTried _) hUntried
      · rw [hAnswered]
        exact mt (tracked.answeredTried _) hUntried
    · refine (tracked.fits target
        (parts ▸ List.mem_append_right _ (List.mem_of_mem_drop left))).spared (hSpared _ ?_)
      intro picked
      exact hBehind _ picked _ (List.mem_map_of_mem left) rfl
  · intro contact member
    rw [hAsked] at member
    rw [hNow]
    exact List.mem_append_left _ (tracked.askedTried contact member)
  · intro contact member
    rw [hAnswered] at member
    rw [hNow]
    exact List.mem_append_left _ (tracked.answeredTried contact member)

/-! ## Asking and answering -/

/-- A node that is awaited gets another state by a move that is about it alone. -/
theorem Tracked.settle (tracked : Tracked targets moves a) (distinct : (targets.map (·.1)).Nodup)
    (awaits : contact ∈ awaited moves) (picks : move.picks = [])
    (alone : ∀ other ≠ contact, move.Spares other)
    (fits : Fits (moves ++ [move]) contact state) (once : (answered (moves ++ [move])).Nodup) :
    Tracked targets (moves ++ [move]) (a.setState contact state) := by
  have hTried : tried (moves ++ [move]) = tried moves := by
    rw [tried_append, picks, List.append_nil]
  have hContact := (mem_awaited_iff.mp awaits).1
  have hDistinct : (a.targets.map (·.contact)).Nodup := tracked.contacts ▸ distinct
  refine ⟨(contacts_setState a contact state).trans tracked.contacts, hTried ▸ tracked.first, ?_, ?_,
    ?_, once, ?_⟩
  · intro target member
    rcases (mem_setState hDistinct).mp member with ⟨old, another⟩ | ⟨old, _, rfl, rfl⟩
    · exact (tracked.fits target old).spared (alone _ another)
    · exact fits
  · intro other member
    rw [hTried]
    by_cases same : other = contact
    · exact same ▸ hContact
    · rw [mem_asked_append, or_iff_left (alone other same).2.1] at member
      exact tracked.askedTried other member
  · intro other member
    rw [hTried]
    by_cases same : other = contact
    · exact same ▸ hContact
    · exact tracked.answeredTried other ((mem_answered_spared (alone other same)).mp member)
  · refine Nat.le_trans (countP_modifyFirst_le fun target member here _ => ?_) tracked.active
    have hSame : target.contact = contact := of_decide_eq_true here
    rw [← hSame] at awaits
    unfold TargetState.isActive
    rw [(tracked.isInFlight_iff member).mpr awaits, Bool.true_or]

theorem awaited_of_unsent (unsent : Unsent moves contact) : contact ∈ awaited moves :=
  mem_awaited_iff.mpr ⟨unsent.1, unsent.2.2⟩

theorem Tracked.sent (tracked : Tracked targets moves a) (distinct : (targets.map (·.1)).Nodup)
    (unsent : Unsent moves contact) (id : TransactionId) :
    Tracked targets (moves ++ [.sent contact id]) (a.sent contact id) := by
  have hAnswered : answered (moves ++ [.sent contact id]) = answered moves :=
    answered_append_of_none rfl
  refine tracked.settle distinct (awaited_of_unsent unsent) rfl ?_ ?_ (hAnswered ▸ tracked.once)
  · intro other another
    refine ⟨List.not_mem_nil, ?_, nofun⟩
    intro same
    exact another (Option.some.inj same).symm
  · refine ⟨List.mem_append_right _ (List.mem_singleton_self _), ?_, hAnswered ▸ unsent.2.2⟩
    rw [tried_append]
    exact List.mem_append_left _ unsent.1

theorem Tracked.onReply (tracked : Tracked targets moves a) (distinct : (targets.map (·.1)).Nodup)
    (awaits : contact ∈ awaited moves) (success : Bool) :
    Tracked targets (moves ++ [.replied contact success]) (a.onReply contact success) := by
  have hMember : (contact, success) ∈ replies (moves ++ [.replied contact success]) :=
    mem_replies_append.mpr (.inr rfl)
  refine tracked.settle distinct awaits rfl ?_ ?_ ?_
  · intro other another
    refine ⟨List.not_mem_nil, nofun, ?_⟩
    intro outcome same
    exact another (Prod.mk.inj (Option.some.inj same)).1.symm
  · cases success with
    | true => exact hMember
    | false => exact hMember
  · unfold answered replies
    rw [List.filterMap_append, List.map_append]
    apply (List.perm_append_singleton _ _).symm.nodup
    exact List.nodup_cons.mpr ⟨(mem_awaited_iff.mp awaits).2, tracked.once⟩

theorem tracked_start (infoHash : InfoHash) (port : Option UInt16)
    (targets : List (Contact × Bytes)) : Tracked targets [] (start infoHash targets port) := by
  refine ⟨?_, List.nil_prefix, ?_, nofun, nofun, List.nodup_nil, ?_⟩
  · unfold start
    rw [List.map_map]
    rfl
  · intro target member
    rcases List.mem_map.mp member with ⟨_, _, rfl⟩
    exact List.not_mem_nil
  · have hCount : (start infoHash targets port).count TargetState.isActive = 0 := by
      apply List.countP_eq_zero.mpr
      intro target member
      rcases List.mem_map.mp member with ⟨_, _, rfl⟩
      exact Bool.false_ne_true
    omega

theorem Run.tracked {infoHash : InfoHash} {port : Option UInt16}
    (run : Run infoHash targets port moves a) (distinct : (targets.map (·.1)).Nodup) :
    Tracked targets moves a := by
  induction run with
  | start => exact tracked_start infoHash port targets
  | pick _ own ih => exact ih.pick distinct own
  | sent _ unsent id ih => exact ih.sent distinct unsent id
  | failed _ unsent ih => exact ih.onReply distinct (awaited_of_unsent unsent) false
  | replied _ sent unanswered success ih =>
    exact ih.onReply distinct (mem_awaited_iff.mpr ⟨ih.askedTried _ sent, unanswered⟩) success

/-! ## Counting -/

/-- If the nodes in certain states are those of a list, there are as many. -/
theorem count_eq_length {meets : TargetState → Bool} {contacts : List Contact}
    (distinct : (a.targets.map (·.contact)).Nodup) (once : contacts.Nodup)
    (exactly : ∀ target ∈ a.targets, meets target.state = true ↔ target.contact ∈ contacts)
    (known : ∀ contact ∈ contacts, contact ∈ a.targets.map (·.contact)) :
    a.count meets = contacts.length := by
  have hPerm : ((a.targets.filter (meets ·.state)).map (·.contact)).Perm contacts := by
    rw [List.perm_ext_iff_of_nodup (distinct.sublist (List.filter_sublist.map _)) once]
    intro contact
    constructor
    · intro member
      rcases List.mem_map.mp member with ⟨target, among, rfl⟩
      rcases List.mem_filter.mp among with ⟨stands, met⟩
      exact (exactly target stands).mp met
    · intro member
      rcases List.mem_map.mp (known contact member) with ⟨target, stands, rfl⟩
      exact List.mem_map_of_mem (List.mem_filter.mpr ⟨stands, (exactly target stands).mpr member⟩)
  unfold count
  rw [List.countP_eq_length_filter, ← hPerm.length_eq, List.length_map]

namespace Tracked

theorem count_isInFlight (tracked : Tracked targets moves a)
    (distinct : (targets.map (·.1)).Nodup) :
    a.count TargetState.isInFlight = (awaited moves).length := by
  have hTried := distinct.sublist tracked.first.sublist
  refine count_eq_length (tracked.contacts ▸ distinct) (hTried.filter _)
    (fun _ member => tracked.isInFlight_iff member) ?_
  intro contact member
  rw [tracked.contacts]
  exact tracked.first.subset (mem_awaited_iff.mp member).1

theorem accepted_eq (tracked : Tracked targets moves a) (distinct : (targets.map (·.1)).Nodup) :
    a.accepted = (replies moves).countP (·.2) := by
  have hLength : (accepting moves).length = (replies moves).countP (·.2) := by
    unfold accepting
    rw [List.length_map, List.countP_eq_length_filter]
  rw [← hLength]
  refine count_eq_length (tracked.contacts ▸ distinct)
    (tracked.once.sublist (List.filter_sublist.map _)) ?_ ?_
  · intro target member
    rw [decide_eq_true_iff, tracked.success_iff member]
  · intro contact member
    rw [tracked.contacts]
    have hAnswered := mem_answered_iff.mpr ⟨true, mem_accepting_iff.mp member⟩
    exact tracked.first.subset (tracked.answeredTried contact hAnswered)

/-- All nodes have been used if all were tried. -/
theorem count_unused_eq_zero_iff (tracked : Tracked targets moves a)
    (distinct : (targets.map (·.1)).Nodup) :
    a.count (· = .unused) = 0 ↔ tried moves = targets.map (·.1) := by
  rcases tracked.split distinct with ⟨used, fresh, parts, hTried, usedUp, unused⟩
  have hContacts := tracked.contacts
  rw [parts, List.map_append, hTried] at hContacts
  have hUsed : used.countP (·.state = .unused) = 0 := by
    apply List.countP_eq_zero.mpr
    intro target member same
    exact usedUp target member (of_decide_eq_true same)
  have hFresh : fresh.countP (·.state = .unused) = fresh.length := by
    apply List.countP_eq_length.mpr
    intro target member
    exact decide_eq_true (unused target member)
  have hCount : a.count (· = .unused) = fresh.length := by
    unfold count
    rw [parts, List.countP_append, hUsed, hFresh, Nat.zero_add]
  rw [hCount, List.length_eq_zero_iff, ← hContacts]
  constructor
  · rintro rfl
    exact (List.append_nil _).symm
  · intro all
    exact List.map_eq_nil_iff.mp (List.self_eq_append_right.mp all)

end Tracked

theorem accepted_le_active (a : Announce) : a.accepted ≤ a.count TargetState.isActive := by
  apply List.countP_mono_left
  intro target _ accepted
  rw [of_decide_eq_true accepted]
  rfl

/-- However an announcement is carried out, it picks the first nodes of its list, no more than eight at
a time, counts those that accept, and is over when nothing is left to do. -/
theorem fannedOut_of_run {infoHash : InfoHash} {port : Option UInt16}
    (distinct : (targets.map (·.1)).Nodup) (run : Run infoHash targets port moves a) :
    FannedOut targets moves a := by
  have tracked := run.tracked distinct
  have hInFlight := tracked.count_isInFlight distinct
  have hFew := Nat.le_trans a.accepted_le_active tracked.active
  have hAwaited : 0 < a.count TargetState.isInFlight ↔ awaited moves ≠ [] := by
    rw [hInFlight]
    exact List.length_pos_iff
  refine ⟨tracked.active, distinct.sublist tracked.first.sublist, tracked.first,
    tracked.accepted_eq distinct, hFew, hInFlight, ?_, ?_⟩
  · intro own none_picked
    cases hProgress : a.progress with
    | completed => exact .inr rfl
    | ongoing =>
      have hSome := inFlight_of_ongoing hProgress none_picked
      exact .inl (hAwaited.mp (List.countP_pos_iff.mpr hSome))
  · have hWanted : wanted ≤ a.accepted ↔ a.accepted = wanted := by omega
    unfold progress
    rw [← tracked.count_unused_eq_zero_iff distinct, ← hWanted]
    by_cases waits : 0 < a.count TargetState.isInFlight
    · rw [if_pos waits]
      exact iff_of_false nofun fun ended => hAwaited.mp waits ended.1
    · rw [if_neg waits, and_iff_right (Decidable.not_not.mp (mt hAwaited.mpr waits))]
      split
      next ended => exact iff_of_true rfl ended
      next goesOn => exact iff_of_false nofun goesOn

/-- Nine nodes that can be told. -/
def nineTargets : List (Contact × Bytes) :=
  (List.range 9).map fun i => (⟨.zero, ⟨.v4 (BitVec.ofNat 32 i), 1⟩⟩, [])

/-- Eight nodes are picked, the first of which cannot be asked. -/
def firstFails : Announce :=
  ((start .zero nineTargets none).pick .zero).2.onReply ⟨.zero, ⟨.v4 0, 1⟩⟩ false

def firstFailsMoves : List Move :=
  [.picked (((start .zero nineTargets none).pick .zero).1.map (·.1)),
    .replied ⟨.zero, ⟨.v4 0, 1⟩⟩ false]

/-- The ninth node is picked in place of the first one. -/
theorem fannedOut_of_replacement :
    (nineTargets.map (·.1)).Nodup ∧
      Run .zero nineTargets none
        (firstFailsMoves ++ [.picked ((firstFails.pick .zero).1.map (·.1))])
        (firstFails.pick .zero).2 ∧
      (firstFails.pick .zero).1.map (·.1) = [⟨.zero, ⟨.v4 8, 1⟩⟩] ∧
      FannedOut nineTargets
        (firstFailsMoves ++ [.picked ((firstFails.pick .zero).1.map (·.1))])
        (firstFails.pick .zero).2 := by
  have hDistinct : (nineTargets.map (·.1)).Nodup := by decide +kernel
  have hUnsent : Unsent
      ([] ++ [.picked (((start .zero nineTargets none).pick .zero).1.map (·.1))])
      ⟨.zero, ⟨.v4 0, 1⟩⟩ := by
    refine ⟨?_, ?_, ?_⟩ <;> decide +kernel
  have hRun : Run .zero nineTargets none
      (firstFailsMoves ++ [.picked ((firstFails.pick .zero).1.map (·.1))])
      (firstFails.pick .zero).2 := ((Run.start.pick .zero).failed hUnsent).pick .zero
  exact ⟨hDistinct, hRun, by decide +kernel, fannedOut_of_run hDistinct hRun⟩

end Announce
end Kademlia
