import Kademlia.Proofs.LocalNode.Course
import Kademlia.Proofs.LocalNode.Roster
import Mathlib.Data.List.Induction

namespace Kademlia
namespace LocalNode

/-!
# How a node comes to ask itself

A node has no use for itself in a lookup.  It is not in its own routing table, and it passes over
itself in the nodes that a response lists.  But the sender of a response comes onto the list of the
lookup under the identifier that it claims, and nobody asks whether this is the node's own.  This is
the only way (`self_of_run`): the node is on the list of a lookup if and only if somebody has
answered one of its queries under the identifier of the node, except that sixty-four nearer nodes may
leave no room for it; and the node is among those that a search finds, or that an announcement is
for, only if such a list has led there.
-/

variable {n : LocalNode} {env : Surroundings} {own : NodeId} {claimed : LookupId → Contact → Prop}
  {sender : Address} {data : Bytes} {response : Response} {t : Transaction}

/-! ## Claims -/

/-- Somebody with an address answers a query of a lookup, under an identifier that need not be its
own. -/
def Claims (k : LookupId) (claimant : Contact) (n : LocalNode) (_ : Surroundings)
    (event : Event) : Prop :=
  n.running = true ∧ ∃ response t active, n.Receives event claimant.address response t ∧
    response.sender = claimant.id ∧ t.owner = .lookup k ∧ IsSearch t.query ∧
    n.lookups.lookup k = some active ∧ active.lookup.isPending t.id = true

/-! ## One event -/

/-- An event at which nobody claims anything leaves the claims as they are. -/
theorem tended_of_unclaimed {m : LocalNode} {event : Event} (tended : m.roster.Tended own claimed)
    (none : ∀ k claimant, ¬ Claims k claimant n env event) :
    m.roster.Tended own fun k claimant =>
      claimed k claimant ∨ Claims k claimant n env event ∧ claimant.id = own :=
  tended.congr fun k claimant => or_iff_left fun claims => none k claimant claims.1

theorem tended_handleResponse (tended : n.roster.Tended own claimed) (running : n.running = true)
    (message : Message) {event : Event} (receives : n.Receives event sender response t) :
    ((n.settle t).handleResponse env sender message response t).roster.Tended own
      fun k claimant => claimed k claimant ∨ Claims k claimant n env event ∧ claimant.id = own := by
  have hHeard : ((n.settle t).hear env sender message response).roster.Tended own claimed :=
    tended.of_table (grown_hear (n.settle t) sender message response)
  have hUnclaimed : (∀ k, t.owner = .lookup k → ¬ IsSearch t.query) →
      ∀ k claimant, ¬ Claims k claimant n env event := by
    rintro passed k claimant ⟨-, response', t', active, received, -, owner, search, -⟩
    rcases receives_unique receives received with ⟨-, -, rfl⟩
    exact passed k owner search
  have hResponded := responded_handleResponse env (n.settle t) sender message response t
  generalize (n.settle t).handleResponse env sender message response t = m at hResponded ⊢
  cases hResponded with
  | search id owner search =>
    have hOthers : ∀ contact ∈ ((n.settle t).hear env sender message response).listed response,
        contact.id ≠ own := by
      intro contact listed
      have hFilter := (Bool.and_eq_true_iff.mp (List.mem_filter.mp listed).2).1
      rw [← tended.same]
      exact of_decide_eq_true hFilter
    refine (tended_lookupResponse hHeard id t.id ⟨response.sender, sender⟩ response hOthers).congr
      fun k claimant => or_congr_right ?_
    constructor
    · rintro ⟨⟨-, response', t', active, received, claims, owned, -, found, waits⟩, self⟩
      rcases receives_unique receives received with ⟨rfl, rfl, rfl⟩
      rcases Owner.lookup.inj (owner.symm.trans owned) with rfl
      exact ⟨⟨active, found, waits⟩, rfl, by rw [claims], self⟩
    · rintro ⟨⟨active, found, waits⟩, rfl, rfl, self⟩
      exact ⟨⟨running, response, t, active, receives, rfl, owner, search, found, waits⟩, self⟩
  | announce id contact owner =>
    refine tended_of_unclaimed (tended_announceReply hHeard id contact true) (hUnclaimed ?_)
    intro k owned
    cases owner.symm.trans owned
  | ping node compatible another =>
    refine tended_of_unclaimed ?_ (hUnclaimed fun _ _ => another)
    rw [notify, overlooks_roster _ _ rfl]
    exact hHeard
  | passed another => exact tended_of_unclaimed hHeard (hUnclaimed another)

theorem tended_handleDatagram (tended : n.roster.Tended own claimed) (running : n.running = true)
    (sender : Address) (data : Bytes) :
    (n.handleDatagram env sender data).roster.Tended own fun k claimant =>
      claimed k claimant ∨
        Claims k claimant n env (.datagram sender data) ∧ claimant.id = own := by
  by_cases received : ∃ response t, n.Receives (.datagram sender data) sender response t
  · rcases received with ⟨response, t, receives⟩
    rcases @handleDatagram_of_receives n env sender data response t receives with ⟨message, same⟩
    rw [same]
    exact tended_handleResponse tended running message receives
  · have hUnclaimed : ∀ k claimant, ¬ Claims k claimant n env (.datagram sender data) := by
      rintro k claimant ⟨-, response, t, active, receives, -⟩
      rcases receives with ⟨data', message, same, rest⟩
      rcases Event.datagram.inj same with ⟨rfl, rfl⟩
      exact received ⟨response, t, data, message, rfl, rest⟩
    refine tended_of_unclaimed ?_ hUnclaimed
    have hHeard := heard_handleDatagram env n sender data
    generalize n.handleDatagram env sender data = m at hHeard ⊢
    cases hHeard with
    | nothing transactions => exact tended
    | query answers read about => exact tended_handleQuery tended sender _ _
    | malformed transaction key =>
      rw [handleMalformed, send, overlooks_roster _ _ rfl]
      exact tended
    | response receives => exact absurd ⟨_, _, receives⟩ received
    | refusal waits =>
      apply tended_queryFailed
      exact tended

theorem tended_handleEvent (tended : n.roster.Tended own claimed) (running : n.running = true)
    (event : Event) :
    (n.handleEvent env event).roster.Tended own fun k claimant =>
      claimed k claimant ∨ Claims k claimant n env event ∧ claimant.id = own := by
  have hUnclaimed : (∀ sender data, event ≠ .datagram sender data) →
      ∀ k claimant, ¬ Claims k claimant n env event := by
    rintro another k claimant ⟨-, response, t, active, ⟨data, message, same, -⟩, -⟩
    exact another _ _ same
  cases event with
  | command command =>
    exact tended_of_unclaimed (tended_handleCommand tended command) (hUnclaimed nofun)
  | datagram sender data => exact tended_handleDatagram tended running sender data
  | wake =>
    refine tended_of_unclaimed ?_ (hUnclaimed nofun)
    rw [handleEvent]
    split
    · apply tended_handleTask
      exact tended
    · exact tended

/-- What was told to the application before does not matter to what is told during an event. -/
theorem tended_clear (tended : n.roster.Tended own claimed) :
    ({ n with outbox := [] } : LocalNode).roster.Tended own claimed :=
  { tended with reports := nofun }

theorem tended_step (tended : n.roster.Tended own claimed) (event : Event) :
    (n.step env event).roster.Tended own fun k claimant =>
      claimed k claimant ∨ Claims k claimant n env event ∧ claimant.id = own := by
  rw [step]
  dsimp only
  split
  next running =>
    have hHandled : (({ n with outbox := [] } : LocalNode).handleEvent env event).roster.Tended own
        fun k claimant => claimed k claimant ∨ Claims k claimant n env event ∧ claimant.id = own :=
      tended_handleEvent (tended_clear tended) running event
    split
    · exact tended_wrapUp hHandled
    · exact tended_close (tended_wrapUp hHandled)
  next stopped =>
    refine tended_of_unclaimed (tended_clear tended) fun k claimant claims => ?_
    exact stopped claims.1

/-! ## All events -/

theorem roster_start (options : Options) (localAddress : Address) (now : Instant)
    (secrets : Draws (BitVec 32)) (firstTransaction : TransactionId) :
    (start options localAddress now secrets firstTransaction).roster.Tended options.id
      fun _ _ => False where
  same := rfl
  sorted := .new _
  distinct := List.nodup_nil
  started := nofun
  began := nofun
  inOrder := nofun
  candidates := nofun
  covers := nofun
  targets := nofun
  reports := nofun

/-- After any number of events, the lists are tended with regard to what was claimed at them. -/
theorem tended_run (new : n.roster.Tended own fun _ _ => False)
    (events : List (Surroundings × Event)) :
    (n.run events).2.roster.Tended own fun k claimant =>
      Happened (Claims k claimant) n events ∧ claimant.id = own := by
  induction events using List.reverseRecOn with
  | nil =>
    exact new.congr fun k claimant => iff_of_false (fun claims => not_happened_nil claims.1) not_false
  | append_singleton events last ih =>
    rcases last with ⟨env, event⟩
    rw [run_append]
    refine (tended_step ih event).congr fun k claimant => ?_
    rw [happened_append, or_and_right]

/-- Whenever the application was told about somebody under the identifier of the node, somebody had
claimed it. -/
theorem claimed_of_reported (new : n.roster.Tended own fun _ _ => False)
    (events : List (Surroundings × Event)) {call : CallId} {found : List Contact}
    (told : .answered call (.contacts found) ∈ (n.run events).1) {contact : Contact}
    (among : contact ∈ found) (self : contact.id = own) :
    ∃ k, Happened (Claims k contact) n events := by
  induction events using List.reverseRecOn with
  | nil => cases told
  | append_singleton events last ih =>
    rcases last with ⟨env, event⟩
    rw [run_append, advance] at told
    rcases List.mem_append.mp told with before | now
    · rcases ih before with ⟨k, claims⟩
      exact ⟨k, happened_append.mpr (.inl claims)⟩
    · have hReported : found ∈ ((n.run events).2.step env event).roster.reports :=
        List.mem_filterMap.mpr ⟨_, now, rfl⟩
      rcases (tended_step (tended_run new events) event).reports found hReported contact among self
        with ⟨k, ⟨claims, -⟩ | ⟨claims, -⟩⟩
      · exact ⟨k, happened_append.mpr (.inl claims)⟩
      · exact ⟨k, happened_append.mpr (.inr claims)⟩

/-- A node is on the list of a lookup where somebody has answered a query of the lookup under its
identifier, and nowhere else, nor is it among those that are found or announced to without having
been on such a list.  Where somebody has, only sixty-four nearer nodes can keep it off the list. -/
theorem self_of_run (options : Options) (localAddress : Address) (now : Instant)
    (secrets : Draws (BitVec 32)) (firstTransaction : TransactionId)
    (events : List (Surroundings × Event)) :
    let n := start options localAddress now secrets firstTransaction
    (∀ entry ∈ (n.run events).2.lookups,
      (∀ candidate ∈ entry.2.lookup.candidates, candidate.contact.id = n.id →
        Happened (Claims entry.1 candidate.contact) n events) ∧
      ∀ claimant, claimant.id = n.id → Happened (Claims entry.1 claimant) n events →
        n.id ∈ entry.2.lookup.candidateIds ∨
          Lookup.maxCandidates ≤ entry.2.lookup.candidates.length ∧
            ∀ other ∈ entry.2.lookup.candidateIds,
              entry.2.lookup.target.cmpDistance other n.id = .lt) ∧
    (∀ entry ∈ (n.run events).2.announces, ∀ target ∈ entry.2.announce.targets,
      target.contact.id = n.id → Happened (Claims entry.1 target.contact) n events) ∧
    ∀ call found, .answered call (.contacts found) ∈ (n.run events).1 →
      ∀ contact ∈ found, contact.id = n.id → ∃ k, Happened (Claims k contact) n events := by
  intro n
  have hNew := roster_start options localAddress now secrets firstTransaction
  have hTended := tended_run hNew events
  have hListed : ∀ entry ∈ (n.run events).2.lookups,
      (entry.1, entry.2.lookup.slate) ∈ (n.run events).2.roster.lookups :=
    fun entry member => List.mem_map_of_mem member
  refine ⟨fun entry member => ⟨fun candidate among self => ?_, fun claimant self claims => ?_⟩,
    fun entry member target chosen self => ?_, fun call found told contact among self => ?_⟩
  · have hSlate : candidate.contact ∈ entry.2.lookup.slate.contacts := List.mem_map_of_mem among
    exact (hTended.candidates _ (hListed entry member) _ hSlate self).1
  · have hCovers := hTended.covers _ (hListed entry member) claimant ⟨claims, self⟩
    rw [self, Lookup.Slate.Covers, Lookup.ids_slate, Lookup.slate, List.length_map] at hCovers
    exact hCovers
  · have hAnnounced : (entry.1, entry.2.announce.targets.map (·.contact)) ∈
        (n.run events).2.roster.announces := List.mem_map_of_mem member
    exact (hTended.targets _ hAnnounced _ (List.mem_map_of_mem chosen) self).1
  · exact claimed_of_reported hNew events told among self

/-- A node that searches from a single address. -/
def seeker : LocalNode :=
  start { id := ⟨5⟩, startingNodes := [⟨.v4 1, 1⟩] } ⟨.v4 2, 2⟩ 0 default ⟨0⟩

/-- Whoever is asked first claims to be the node itself, and lists another one. -/
def impersonation : List (Surroundings × Event) :=
  [(.reliable 0,
      .command (.lookup ⟨⟨1⟩, .findNode, false, .contacts ⟨0⟩⟩)),
    (.reliable 1, .datagram ⟨.v4 1, 1⟩
      (Message.ofBody (TransactionId.mk 0).toBytes
        (.response { sender := ⟨5⟩, nodes := [⟨⟨6⟩, ⟨.v4 3, 3⟩⟩] })).encode)]

/-- The other one answers too. -/
def lastAnswer : Surroundings × Event :=
  (.reliable 2, .datagram ⟨.v4 3, 3⟩
    (Message.ofBody (TransactionId.mk 1).toBytes (.response { sender := ⟨6⟩ })).encode)

theorem self_of_impersonation :
    ∃ entry ∈ (seeker.run impersonation).2.lookups, ∃ candidate ∈ entry.2.lookup.candidates,
      candidate.contact.id = seeker.id ∧
        Happened (Claims entry.1 candidate.contact) seeker impersonation := by
  have hSelf : ∃ entry ∈ (seeker.run impersonation).2.lookups,
      ∃ candidate ∈ entry.2.lookup.candidates, candidate.contact.id = seeker.id := by
    decide +kernel
  rcases hSelf with ⟨entry, member, candidate, among, self⟩
  exact ⟨entry, member, candidate, among, self,
    ((self_of_run _ _ _ _ _ impersonation).1 entry member).1 candidate among self⟩

theorem self_among_candidates :
    seeker.id = ⟨5⟩ ∧
      (seeker.run impersonation).2.lookups.map
        (fun entry => (entry.1, entry.2.lookup.candidateIds)) = [(⟨0⟩, [⟨5⟩, ⟨6⟩])] ∧
      .answered ⟨0⟩ (.contacts [⟨⟨5⟩, ⟨.v4 1, 1⟩⟩, ⟨⟨6⟩, ⟨.v4 3, 3⟩⟩]) ∈
        (seeker.run (impersonation ++ [lastAnswer])).1 := by
  decide +kernel

end LocalNode
end Kademlia
