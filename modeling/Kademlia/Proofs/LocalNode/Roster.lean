import Kademlia.Proofs.LocalNode.Situation

namespace Kademlia

/-!
# The lists of a node

Whom the lookups of a node have on their lists, whom its announcements are for, and whom it names to
the application (`Roster`).  Somebody comes onto the list of a lookup out of the routing table, or
by an answer to one of its queries; all others are taken from such a list.

A roster is tended with regard to certain claims (`Roster.Tended`) if the node itself is on a list
only where somebody has claimed to be it, and is on the list of every lookup where somebody has,
unless there are enough nearer nodes to fill the list.
-/

open Routing (Table)
open Routing.Table (Grown)

/-- Whom the application is told about when a search is over. -/
def Effect.report? : Effect → Option (List Contact)
  | answered _ (.contacts found) => some found
  | _ => none

/-- The lists of a node. -/
structure Roster where
  own : NodeId
  table : Table
  /-- How many lookups were ever started. -/
  started : Nat
  lookups : List (LookupId × Lookup.Slate)
  announces : List (LookupId × List Contact)
  /-- Whom the application was told about during the event at hand. -/
  reports : List (List Contact)

namespace Roster

/-- The node itself is on a list where somebody has claimed to be it, and nowhere else. -/
structure Tended (own : NodeId) (claimed : LookupId → Contact → Prop) (r : Roster) : Prop where
  same : r.own = own
  sorted : r.table.Sorted own
  distinct : (r.lookups.map (·.1)).Nodup
  started : ∀ entry ∈ r.lookups, entry.1.number < r.started
  began : ∀ k claimant, claimed k claimant → k.number < r.started
  inOrder : ∀ entry ∈ r.lookups, entry.2.InOrder
  candidates : ∀ entry ∈ r.lookups, ∀ contact ∈ entry.2.contacts, contact.id = own →
    claimed entry.1 contact
  covers : ∀ entry ∈ r.lookups, ∀ claimant, claimed entry.1 claimant → entry.2.Covers claimant.id
  targets : ∀ entry ∈ r.announces, ∀ contact ∈ entry.2, contact.id = own → claimed entry.1 contact
  reports : ∀ found ∈ r.reports, ∀ contact ∈ found, contact.id = own → ∃ k, claimed k contact

namespace Tended

variable {own : NodeId} {claimed : LookupId → Contact → Prop} {r : Roster} {k : LookupId}

theorem congr {others : LookupId → Contact → Prop} (tended : r.Tended own claimed)
    (same : ∀ k claimant, others k claimant ↔ claimed k claimant) : r.Tended own others := by
  have hSame : others = claimed := funext fun k => funext fun claimant => propext (same k claimant)
  rw [hSame]
  exact tended

theorem of_table {table : Table} {entrants : Contact → Prop} (tended : r.Tended own claimed)
    (grows : Grown entrants r.table table) : Tended own claimed { r with table } :=
  { tended with sorted := grows.sorted own tended.sorted }

/-- Nobody has claimed anything about a lookup that only starts. -/
theorem launch {slate : Lookup.Slate} (tended : r.Tended own claimed) (inOrder : slate.InOrder)
    (others : ∀ contact ∈ slate.contacts, contact.id ≠ own) :
    Tended own claimed { r with
      started := r.started + 1
      lookups := r.lookups ++ [(⟨r.started⟩, slate)] } where
  same := tended.same
  sorted := tended.sorted
  distinct := by
    refine nodup_keys_append tended.distinct fun before => ?_
    rcases List.mem_map.mp before with ⟨entry, member, same⟩
    have hBefore := tended.started entry member
    rw [same] at hBefore
    exact Nat.lt_irrefl _ hBefore
  started entry member := by
    rcases List.mem_append.mp member with before | new
    · exact Nat.lt_succ_of_lt (tended.started entry before)
    · rw [List.mem_singleton.mp new]
      exact Nat.lt_succ_self _
  began k claimant claims := Nat.lt_succ_of_lt (tended.began k claimant claims)
  inOrder entry member := by
    rcases List.mem_append.mp member with before | new
    · exact tended.inOrder entry before
    · rw [List.mem_singleton.mp new]
      exact inOrder
  candidates entry member contact listed self := by
    rcases List.mem_append.mp member with before | new
    · exact tended.candidates entry before contact listed self
    · rw [List.mem_singleton.mp new] at listed
      exact absurd self (others contact listed)
  covers entry member claimant claims := by
    rcases List.mem_append.mp member with before | new
    · exact tended.covers entry before claimant claims
    · rw [List.mem_singleton.mp new] at claims
      exact absurd (tended.began _ claimant claims) (Nat.lt_irrefl _)
  targets := tended.targets
  reports := tended.reports

/-- Some lookups and announcements are over. -/
theorem drop (tended : r.Tended own claimed) {lookups : List (LookupId × Lookup.Slate)}
    {announces : List (LookupId × List Contact)} (fewer : List.Sublist lookups r.lookups)
    (less : List.Sublist announces r.announces) :
    Tended own claimed { r with lookups, announces } where
  same := tended.same
  sorted := tended.sorted
  distinct := tended.distinct.sublist (fewer.map _)
  started entry member := tended.started entry (fewer.subset member)
  began := tended.began
  inOrder entry member := tended.inOrder entry (fewer.subset member)
  candidates entry member := tended.candidates entry (fewer.subset member)
  covers entry member := tended.covers entry (fewer.subset member)
  targets entry member := tended.targets entry (less.subset member)
  reports := tended.reports

/-- An announcement begins, for nodes among whom the node itself is only where somebody has claimed
to be it. -/
theorem announce (tended : r.Tended own claimed) {contacts : List Contact}
    (chosen : ∀ contact ∈ contacts, contact.id = own → claimed k contact) :
    Tended own claimed { r with announces := r.announces ++ [(k, contacts)] } :=
  { tended with
    targets := by
      intro entry member
      rcases List.mem_append.mp member with before | new
      · exact tended.targets entry before
      · rw [List.mem_singleton.mp new]
        exact chosen }

theorem report (tended : r.Tended own claimed) {found : List Contact}
    (told : ∀ contact ∈ found, contact.id = own → ∃ k, claimed k contact) :
    Tended own claimed { r with reports := r.reports ++ [found] } :=
  { tended with
    reports := by
      intro contacts member
      rcases List.mem_append.mp member with before | new
      · exact tended.reports contacts before
      · rw [List.mem_singleton.mp new]
        exact told }

/-- The list of a lookup has become longer by an answer, whose sender may claim to be the node
itself. -/
theorem heed (tended : r.Tended own claimed) {slate next : Lookup.Slate} {sender : Contact}
    (among : (k, slate) ∈ r.lookups) (inOrder : next.InOrder)
    (contacts : ∀ contact ∈ next.contacts, contact.id = own →
      contact ∈ slate.contacts ∨ contact = sender)
    (covers : ∀ id, slate.Covers id → next.Covers id) (met : next.Covers sender.id) :
    Tended own (fun other claimant => claimed other claimant ∨
        other = k ∧ claimant = sender ∧ claimant.id = own)
      { r with lookups := modifyFirst (·.1 = k) (fun entry => (entry.1, next)) r.lookups } := by
  have hChanged : ∀ entry ∈ modifyFirst (·.1 = k) (fun entry => (entry.1, next)) r.lookups,
      (entry ∈ r.lookups ∧ entry.1 ≠ k) ∨ entry = (k, next) := fun _ =>
    mem_modifyFirst_of_entered (fun _ => next) tended.distinct among
  have hKeys : (modifyFirst (·.1 = k) (fun entry => (entry.1, next)) r.lookups).map (·.1) =
      r.lookups.map (·.1) := map_modifyFirst fun _ _ => rfl
  have hDistinct := tended.distinct
  rw [← hKeys] at hDistinct
  have hNumber := tended.started _ among
  refine ⟨tended.same, tended.sorted, hDistinct, ?_, ?_, ?_, ?_, ?_, ?_, ?_⟩
  · intro entry member
    rcases hChanged entry member with ⟨before, -⟩ | rfl
    · exact tended.started entry before
    · exact hNumber
  · rintro other claimant (claims | ⟨rfl, -⟩)
    · exact tended.began other claimant claims
    · exact hNumber
  · intro entry member
    rcases hChanged entry member with ⟨before, -⟩ | rfl
    · exact tended.inOrder entry before
    · exact inOrder
  · intro entry member contact listed self
    rcases hChanged entry member with ⟨before, -⟩ | rfl
    · exact .inl (tended.candidates entry before contact listed self)
    · rcases contacts contact listed self with before | same
      · exact .inl (tended.candidates _ among contact before self)
      · exact .inr ⟨rfl, same, self⟩
  · intro entry member claimant claims
    rcases hChanged entry member with ⟨before, another⟩ | rfl
    · rcases claims with claims | ⟨same, -⟩
      · exact tended.covers entry before claimant claims
      · exact absurd same another
    · rcases claims with claims | ⟨-, rfl, -⟩
      · exact covers _ (tended.covers _ among claimant claims)
      · exact met
  · intro entry member contact chosen self
    exact .inl (tended.targets entry member contact chosen self)
  · intro found member contact told self
    rcases tended.reports found member contact told self with ⟨k, claims⟩
    exact ⟨k, .inl claims⟩

end Tended
end Roster

namespace LocalNode

/-- The lists of a node. -/
def roster (n : LocalNode) : Roster where
  own := n.id
  table := n.table
  started := n.lookupCount
  lookups := n.lookups.map fun entry => (entry.1, entry.2.lookup.slate)
  announces := n.announces.map fun entry =>
    (entry.1, entry.2.announce.targets.map (·.contact))
  reports := n.outbox.filterMap Effect.report?

variable {env : Surroundings} {own : NodeId} {claimed : LookupId → Contact → Prop}
  {n : LocalNode}

theorem mem_roster_of_lookup {id : LookupId} {active : ActiveLookup}
    (found : n.lookups.lookup id = some active) :
    (id, active.lookup.slate) ∈ n.roster.lookups :=
  List.mem_map_of_mem (mem_of_lookup found)

/-! ## What leaves the lists as they are -/

theorem overlooks_roster : Overlooks roster fun effect => effect.report? = none := by
  intro n effect silent
  have hReports : (n.emit effect).outbox.filterMap Effect.report? =
      n.outbox.filterMap Effect.report? := by
    rw [emit, List.filterMap_append, List.filterMap_cons_none silent, List.filterMap_nil,
      List.append_nil]
  rw [roster, hReports]
  rfl

theorem roster_setState (n : LocalNode) (state : ConnectionState) :
    (n.setState state).roster = n.roster :=
  overlooks_roster.setState (fun _ => rfl) n state

theorem roster_sendQuery (n : LocalNode) (destination : Destination) (nodeId : Option NodeId)
    (query : Query) (owner : Owner) :
    (n.sendQuery env destination nodeId query owner).2.roster = n.roster :=
  overlooks_roster.sendQuery (fun _ _ _ _ => rfl) (fun _ _ _ _ _ => rfl) n destination nodeId
    query owner

theorem discreet_roster : Discreet roster where
  sendQuery _ n := roster_sendQuery n
  modifyLookup n id change kept := by
    rw [modifyLookup, roster, map_modifyFirst_of_found]
    · rfl
    · intro active found
      rw [(kept active found).slate]
  modifyAnnounce n id change kept := by
    rw [modifyAnnounce, roster, map_modifyFirst_of_found]
    · rfl
    · intro active found
      rw [kept active found]
  completed _ _ := rfl

theorem roster_refreshTick (n : LocalNode) : (n.refreshTick env).roster = n.roster := by
  rw [refreshTick]
  exact foldl_keeps roster (fun m pick => roster_sendQuery m ..) _ _

theorem roster_answerWaiting (n : LocalNode) (success : Bool) :
    (n.answerWaiting success).roster = n.roster :=
  overlooks_roster.answerWaiting (fun _ _ => rfl) n success

/-! ## Lookups -/

theorem tended_launch (tended : n.roster.Tended own claimed) {active : ActiveLookup}
    (sorted : active.lookup.Sorted)
    (others : ∀ contact ∈ active.lookup.slate.contacts, contact.id ≠ own) :
    (n.launch env active).roster.Tended own claimed := by
  have hLaunched : (n.launch env active).roster = { n.roster with
      started := n.roster.started + 1
      lookups := n.roster.lookups ++ [(⟨n.roster.started⟩, active.lookup.slate)] } := by
    rw [launch, discreet_roster.driveLookup, roster, List.map_append]
    rfl
  rw [hLaunched]
  exact tended.launch (Lookup.inOrder_slate_iff.mpr sorted) others

/-- A lookup may start from any contacts that are in the routing table. -/
theorem tended_launch_start (tended : n.roster.Tended own claimed) {target : NodeId}
    {kind : LookupKind} {announce : Bool} {concurrency maxRounds : Nat} {contacts : List Contact}
    {seeds : List Destination} {sink : Sink}
    (known : ∀ contact ∈ contacts, contact ∈ n.table.contacts) :
    let lookup := .start target kind announce concurrency maxRounds contacts seeds
    (n.launch env ⟨lookup, sink⟩).roster.Tended own claimed :=
  tended_launch tended (Lookup.Sorted.start ..) fun contact listed =>
    tended.sorted.ne_of_mem_contacts (known contact (Lookup.mem_slate_start listed))

theorem tended_startLookup (tended : n.roster.Tended own claimed) (request : LookupRequest) :
    (n.startLookup env request).roster.Tended own claimed :=
  tended_launch_start tended fun _ => Table.mem_contacts_of_closestWhere

theorem tended_requestLookup (tended : n.roster.Tended own claimed) (request : LookupRequest) :
    (n.requestLookup env request).roster.Tended own claimed := by
  rw [requestLookup]
  split
  · exact tended
  · exact tended_startLookup tended request

theorem tended_startQueued (tended : n.roster.Tended own claimed) :
    (n.startQueued env).roster.Tended own claimed := by
  have hStarted : ∀ (requests : List LookupRequest) (m : LocalNode),
      m.roster.Tended own claimed →
        (requests.foldl (startLookup env) m).roster.Tended own claimed := by
    intro requests
    induction requests with
    | nil => exact fun _ tended => tended
    | cons request requests ih => exact fun m tended => ih _ (tended_startLookup tended request)
  exact hStarted n.queued { n with queued := [] } tended

/-! ## Announcements -/

theorem tended_completeAnnounce (tended : n.roster.Tended own claimed) (id : LookupId) :
    (n.completeAnnounce id).roster.Tended own claimed := by
  rw [completeAnnounce]
  split
  · exact tended
  next active _ =>
    dsimp only
    rw [overlooks_roster.endStream fun _ => rfl, notify, overlooks_roster _ _ rfl]
    exact tended.drop (List.Sublist.refl _) (List.filter_sublist.map _)

theorem tended_continueAnnounce (tended : n.roster.Tended own claimed) (id : LookupId) :
    (n.continueAnnounce env id).roster.Tended own claimed := by
  rw [continueAnnounce]
  split
  · exact tended
  next active _ =>
    have hGone : (announceRounds env id (active.announce.count (· = .unused) + 1) n).roster =
        n.roster := discreet_roster.announceRounds ..
    dsimp only
    generalize announceRounds env id (active.announce.count (· = .unused) + 1) n = m at hGone ⊢
    rw [← hGone] at tended
    split
    · split
      · exact tended_completeAnnounce tended id
      · exact tended
    · exact tended

theorem tended_startAnnounce (tended : n.roster.Tended own claimed) {id : LookupId}
    {infoHash : InfoHash} {targets : List (Contact × Bytes)} {stream : Option StreamId}
    (chosen : ∀ target ∈ targets, target.1.id = own → claimed id target.1) :
    (n.startAnnounce env id infoHash targets stream).roster.Tended own claimed := by
  rw [startAnnounce]
  generalize hActive : (⟨Announce.start infoHash targets _, stream⟩ : ActiveAnnounce) = active
  have hContacts : active.announce.targets.map (·.contact) = targets.map (·.1) := by
    rw [← hActive, Announce.start, List.map_map]
    rfl
  have hBegun : ({ n with announces := n.announces ++ [(id, active)] } : LocalNode).roster =
      { n.roster with announces := n.roster.announces ++ [(id, targets.map (·.1))] } := by
    rw [roster, List.map_append, List.map_singleton, hContacts]
    rfl
  refine tended_continueAnnounce ?_ id
  rw [hBegun]
  refine tended.announce fun contact among => ?_
  rcases List.mem_map.mp among with ⟨target, member, rfl⟩
  exact chosen target member

theorem tended_announceReply (tended : n.roster.Tended own claimed) (id : LookupId)
    (contact : Contact) (success : Bool) :
    (n.announceReply env id contact success).roster.Tended own claimed := by
  rw [announceReply]
  split
  · exact tended
  · have hNoted : (n.modifyAnnounce id (·.onReply contact success)).roster = n.roster :=
      discreet_roster.modifyAnnounce n id _ fun _ _ => Announce.contacts_setState ..
    dsimp only
    rw [← hNoted] at tended
    split
    · exact tended_continueAnnounce tended id
    · exact tended_completeAnnounce tended id

/-! ## Queries that are settled -/

theorem roster_modifyLookup (n : LocalNode) (id : LookupId) (next : Lookup) :
    (n.modifyLookup id fun _ => next).roster =
      { n.roster with
        lookups := modifyFirst (·.1 = id) (fun entry => (entry.1, next.slate))
          n.roster.lookups } := by
  have hLookups : (n.modifyLookup id fun _ => next).lookups.map
      (fun entry => (entry.1, entry.2.lookup.slate)) =
        modifyFirst (·.1 = id) (fun entry => (entry.1, next.slate)) n.roster.lookups :=
    map_modifyFirst_of_comp (fun _ => rfl) fun _ => rfl
  rw [roster, hLookups]
  rfl

/-- The sender of a response that a lookup takes up gets onto its list, whoever it claims to be.
The nodes that it names are known not to be the node itself. -/
theorem tended_lookupResponse (tended : n.roster.Tended own claimed) (id : LookupId)
    (transaction : TransactionId) (sender : Contact) (response : Response) {nodes : List Contact}
    (others : ∀ contact ∈ nodes, contact.id ≠ own) :
    (n.lookupResponse env id transaction sender response nodes).roster.Tended own
      fun other claimant => claimed other claimant ∨
        (∃ active, n.lookups.lookup id = some active ∧
          active.lookup.isPending transaction = true) ∧
        other = id ∧ claimant = sender ∧ claimant.id = own := by
  have hReported := overlooks_roster.reportPeer (fun _ _ => rfl) fun _ _ => rfl
  rw [lookupResponse]
  cases found : n.lookups.lookup id with
  | none =>
    refine tended.congr fun other claimant => or_iff_left ?_
    rintro ⟨⟨active, same, -⟩, -⟩
    cases same
  | some active =>
    dsimp only
    rw [discreet_roster.driveLookup, foldl_keeps roster (hReported _ _)]
    cases asked : active.lookup.isPending transaction with
    | false =>
      rw [Lookup.onResponse_of_late asked]
      have hSame : (n.modifyLookup id fun _ => active.lookup).roster = n.roster :=
        discreet_roster.modifyLookup n id _ fun other same => by
          rcases Option.some.inj (found.symm.trans same) with rfl
          exact .refl _
      rw [hSame]
      refine tended.congr fun other claimant => or_iff_left ?_
      rintro ⟨⟨other, same, waits⟩, -⟩
      rcases Option.some.inj same with rfl
      rw [asked] at waits
      cases waits
    | true =>
      rcases Lookup.enlarged_onResponse asked sender response nodes with ⟨enlarged, met⟩
      generalize active.lookup.onResponse transaction sender response nodes = answered
        at enlarged met ⊢
      have hAmong := mem_roster_of_lookup found
      have hSorted : active.lookup.Sorted :=
        Lookup.inOrder_slate_iff.mp (tended.inOrder (id, active.lookup.slate) hAmong)
      have hHeeded := tended.heed hAmong
        (Lookup.inOrder_slate_iff.mpr (enlarged.sorted hSorted))
        (fun contact listed self => (enlarged.contacts contact listed).imp_right fun new =>
          new.resolve_right fun named => others contact named self)
        (enlarged.covers hSorted) (met hSorted)
      rw [roster_modifyLookup]
      refine hHeeded.congr fun other claimant => or_congr_right ?_
      exact and_iff_right ⟨active, rfl, asked⟩

theorem tended_queryFailed (tended : n.roster.Tended own claimed) (t : Transaction)
    (timedOut : Bool) : (n.queryFailed env t timedOut).roster.Tended own claimed := by
  have hNoted : (if timedOut ∧ t.destination.link = 0 then
      { n with table := n.table.failedAddress t.destination.address } else n).roster.Tended own
        claimed := by
    split
    · have hGrown : Grown (fun _ => False) n.table
        (n.table.failedAddress t.destination.address) := Table.grown_failedAddress ..
      exact tended.of_table hGrown
    · exact tended
  rw [queryFailed]
  generalize (if timedOut ∧ t.destination.link = 0 then
    { n with table := n.table.failedAddress t.destination.address } else n) = m at hNoted ⊢
  split
  next id _ =>
    have hTold : (m.modifyLookup id (·.onFailure t.id)).roster = m.roster :=
      discreet_roster.modifyLookup m id _ fun _ _ => Lookup.alike_onFailure ..
    rw [discreet_roster.driveLookup, hTold]
    exact hNoted
  next id _ =>
    split
    · exact tended_announceReply hNoted id _ false
    · exact hNoted
  · exact hNoted
  · exact hNoted

theorem tended_failAll (stale : List Transaction) (tended : n.roster.Tended own claimed) :
    (stale.foldl (failStale env) n).roster.Tended own claimed := by
  induction stale generalizing n with
  | nil => exact tended
  | cons t stale ih =>
    have hFailed : ({ n with timer := (n.timer.cancel t.id).2 } : LocalNode).roster.Tended own
      claimed := tended
    exact ih (tended_queryFailed hFailed t true)

/-! ## Joining -/

theorem tended_bootstrapSucceeded (tended : n.roster.Tended own claimed) :
    (n.bootstrapSucceeded env).roster.Tended own claimed := by
  have hTold : ((n.setState .connected).notify .bootstrapCompleted).roster = n.roster :=
    (overlooks_roster _ _ rfl).trans (roster_setState ..)
  have hRefreshed : ∀ m : LocalNode, (if m.refreshStarted then m
      else refreshTick env { m with refreshStarted := true }).roster = m.roster := by
    intro m
    split
    · rfl
    · exact roster_refreshTick _
  rw [bootstrapSucceeded]
  apply tended_startQueued
  rw [hRefreshed, roster_answerWaiting, hTold]
  exact tended

theorem tended_startBootstrap (tended : n.roster.Tended own claimed) :
    (n.startBootstrap env).roster.Tended own claimed := by
  have hConnecting : (if n.state = .connected then n else n.setState .connecting).roster =
      n.roster := by
    split
    · rfl
    · exact roster_setState n .connecting
  rw [startBootstrap]
  split
  · exact tended
  · rw [← hConnecting] at tended
    generalize (if n.state = .connected then n else n.setState .connecting) = m at tended ⊢
    dsimp only
    split
    · exact tended_bootstrapSucceeded tended
    · have hSame : (if m.bootstrap.needsLookUp then m.emit .lookingUp else m).roster = m.roster :=
        overlooks_roster.emit_if _ m rfl
      rw [← hSame] at tended
      generalize (if m.bootstrap.needsLookUp then m.emit .lookingUp else m) = begun at tended ⊢
      apply tended_launch_start
      · exact tended
      · exact fun _ => Table.mem_contacts_of_closestWhere

theorem tended_bootstrapLookupCompleted (tended : n.roster.Tended own claimed) :
    (n.bootstrapLookupCompleted env).roster.Tended own claimed := by
  rw [bootstrapLookupCompleted]
  generalize n.bootstrap.onLookupCompleted (n.table.countWith env.now .good) = judged
  rcases judged with ⟨outcome, bootstrap⟩
  cases outcome with
  | completed => exact tended_bootstrapSucceeded tended
  | retry failed =>
    cases failed with
    | false => exact tended
    | true =>
      have hTold : ((({ n with bootstrap } : LocalNode).notify .bootstrapFailed).answerWaiting
          false).roster = n.roster := (roster_answerWaiting ..).trans (overlooks_roster _ _ rfl)
      rw [← hTold] at tended
      exact tended_startQueued tended

/-! ## Lookups that are over -/

/-- What a lookup passes on stems from its list. -/
theorem tended_deliver (tended : n.roster.Tended own claimed) {id : LookupId} (sink : Sink)
    {lookup : Lookup}
    (listed : ∀ contact ∈ lookup.slate.contacts, contact.id = own → claimed id contact) :
    (n.deliver env id sink lookup.finish).roster.Tended own claimed := by
  have hTargets : ∀ target ∈ lookup.finish.announceTargets, target.1.id = own →
      claimed id target.1 := fun target chosen =>
    listed target.1 (Lookup.mem_slate_of_announceTargets chosen)
  rw [deliver.eq_def]
  split
  next call =>
    have hReported : (n.emit (.answered call (.contacts lookup.finish.closest))).roster =
        { n.roster with reports := n.roster.reports ++ [lookup.finish.closest] } := by
      rw [roster, emit, List.filterMap_append]
      rfl
    rw [hReported]
    exact tended.report fun contact found self =>
      ⟨id, listed contact (Lookup.mem_slate_of_closest found) self⟩
  · split
    · exact tended_startAnnounce tended hTargets
    · rw [overlooks_roster _ _ rfl]
      exact tended
  · split
    · exact tended_startAnnounce tended hTargets
    · exact tended

theorem tended_lookupCompleted (tended : n.roster.Tended own claimed) (id : LookupId) :
    (n.lookupCompleted env id).roster.Tended own claimed := by
  rw [lookupCompleted]
  cases found : n.lookups.lookup id with
  | none => exact tended
  | some active =>
    have hListed : ∀ contact ∈ active.lookup.slate.contacts, contact.id = own →
        claimed id contact := tended.candidates _ (mem_roster_of_lookup found)
    have hDropped : ({ n with lookups := n.lookups.filter (·.1 ≠ id) } : LocalNode).roster.Tended
        own claimed := tended.drop (List.filter_sublist.map _) (List.Sublist.refl _)
    dsimp only
    refine tended_deliver ?_ _ hListed
    generalize hOver : LocalNode.notify _ (.lookupCompleted _ _ _) = m
    have hSame : m.roster =
        ({ n with lookups := n.lookups.filter (·.1 ≠ id) } : LocalNode).roster := by
      rw [← hOver]
      exact overlooks_roster _ _ rfl
    rw [← hSame] at hDropped
    split
    · exact tended_bootstrapLookupCompleted hDropped
    · exact hDropped

theorem tended_wrapUpSome (count : Nat) (tended : n.roster.Tended own claimed) :
    (wrapUpSome env count n).roster.Tended own claimed := by
  induction count generalizing n with
  | zero => exact tended
  | succ count ih =>
    rw [wrapUpSome]
    split
    · exact tended
    next id rest _ =>
      have hRest : ({ n with completed := rest } : LocalNode).roster.Tended own claimed := tended
      exact ih (tended_lookupCompleted hRest id)

theorem tended_wrapUp (tended : n.roster.Tended own claimed) :
    (n.wrapUp env).roster.Tended own claimed :=
  tended_wrapUpSome _ tended

/-! ## Tasks and commands -/

theorem tended_rejoinIfEmpty (tended : n.roster.Tended own claimed) :
    (n.rejoinIfEmpty env).roster.Tended own claimed := by
  rw [rejoinIfEmpty]
  split
  · apply tended_startBootstrap
    rw [roster_setState]
    exact tended
  · exact tended

theorem tended_announceAgain (tended : n.roster.Tended own claimed) :
    (n.announceAgain env).roster.Tended own claimed := by
  rw [announceAgain]
  split
  next hash last _ _ =>
    split
    · apply tended_requestLookup
      exact tended
    · exact tended
  next => exact tended

theorem tended_maintain (tended : n.roster.Tended own claimed) :
    (n.maintain env).roster.Tended own claimed := by
  have hGrown : Grown (fun _ => False) n.table
      (n.table.removeStale env.now n.settings.nodeExpiry).2 := Table.grown_removeStale ..
  rw [maintain]
  dsimp only
  refine tended_announceAgain (tended_rejoinIfEmpty (tended_failAll _ ?_))
  exact tended.of_table hGrown

theorem tended_handleTask (tended : n.roster.Tended own claimed) (task : Task) :
    (n.handleTask env task).roster.Tended own claimed := by
  cases task with
  | queryTimeout id =>
    rw [handleTask, handleQueryTimeout]
    split
    · apply tended_queryFailed
      exact tended
    · exact tended
  | tableRefresh =>
    rw [handleTask, roster_refreshTick]
    exact tended
  | maintenance => exact tended_maintain tended
  | bootstrapRetry => exact tended_startBootstrap tended

theorem tended_joinNetwork (tended : n.roster.Tended own claimed) (stream : StreamId) :
    (n.joinNetwork env stream).roster.Tended own claimed := by
  have hSearched : (n.requestLookup env ⟨n.id, .findNode, false, .nowhere⟩).roster.Tended own
      claimed := tended_requestLookup tended _
  unfold joinNetwork
  generalize n.requestLookup env ⟨n.id, .findNode, false, .nowhere⟩ = m at hSearched ⊢
  dsimp only
  split
  next hash _ =>
    apply tended_requestLookup
    exact hSearched
  next =>
    rw [overlooks_roster _ _ rfl]
    exact hSearched

theorem tended_handleCommand (tended : n.roster.Tended own claimed) (command : Command) :
    (n.handleCommand env command).roster.Tended own claimed := by
  cases command with
  | startBootstrap => exact tended_startBootstrap tended
  | awaitBootstrap call =>
    rw [handleCommand]
    split
    · rw [overlooks_roster _ _ rfl]
      exact tended
    · exact tended
  | lookup request => exact tended_requestLookup tended request
  | joinNetwork stream => exact tended_joinNetwork tended stream
  | ping address =>
    rw [handleCommand, roster_sendQuery]
    exact tended
  | shutDown => exact tended

theorem tended_handleQuery (tended : n.roster.Tended own claimed) (sender : Address)
    (message : Message) (query : Query) :
    (n.handleQuery env sender message query).roster.Tended own claimed := by
  rcases handleQuery_cases env n sender message query with
    ⟨table, m, body, noted, ⟨tokens, store, notices, rfl⟩, same⟩
  have hSilent : (notices.map Effect.notice).filterMap Effect.report? = [] := by
    rw [List.filterMap_map]
    exact List.filterMap_eq_nil_iff.mpr fun _ _ => rfl
  rw [same, send, overlooks_roster _ _ rfl, roster, List.filterMap_append, hSilent, List.append_nil]
  exact tended.of_table (grown_of_noted noted)

/-! ## Closing -/

/-- A node that has shut down has no lists any more, and tells the application about nobody. -/
theorem roster_close (n : LocalNode) :
    n.close.roster = { n.roster with
      lookups := []
      announces := [] } := by
  refine overlooks_roster.of_adds ((adds_close n).imp fun _ parting => ?_)
  cases parting <;> rfl

theorem tended_close (tended : n.roster.Tended own claimed) :
    n.close.roster.Tended own claimed := by
  rw [roster_close]
  exact tended.drop (List.nil_sublist _) (List.nil_sublist _)

end LocalNode
end Kademlia
