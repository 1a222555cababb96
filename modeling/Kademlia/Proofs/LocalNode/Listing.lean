import Kademlia.Proofs.LocalNode.Claiming
import Kademlia.Proofs.LocalNode.Entering
import Kademlia.Proofs.LocalNode.Replying
import Kademlia.Proofs.Routing.Nearest

namespace Kademlia

/-- The target that a query searches the closest nodes of, and what it wants of them. -/
def Query.seeks? : Query → Option (NodeId × Option Want)
  | .findNode _ target want => some (target, want)
  | .getPeers _ infoHash want => some (infoHash, want)
  | .ping _ | .announcePeer .. | .other .. => none

namespace LocalNode

/-!
# The nodes that a response lists

Whoever searches for nodes or for peers is told of the closest nodes that are known, after the
routing table has taken note of the one that asks.  Since the table is sorted at all times, the
search is exact, and the node does not find itself.  The one that asks is left out by its address;
it may be listed at another one.
-/

open Routing (Table)

variable {n : LocalNode} {env : Surroundings} {sender : Address} {target : NodeId}
  {want : Option Want} {query : Query}

/-- The families that are wanted: those that a query names, or else the one of the node. -/
def wantedFamilies (n : LocalNode) : Option Want → List Family
  | some .v4 => [.v4]
  | some .v6 => [.v6]
  | some .both => [.v4, .v6]
  | none => [n.family]

/-- The contacts of one family that a requester is told of, out of a given routing table. -/
structure Lists (own : NodeId) (families : List Family) (table : Table) (now : Instant)
    (requester : Address) (target : NodeId) (family : Family) (listed : List Contact) : Prop where
  few : listed.length ≤ 8
  useful : ∀ contact ∈ listed, ∃ node ∈ table.nodes,
    node.contact = contact ∧ node.status now ≠ .bad
  kin : ∀ contact ∈ listed, contact.family = family
  elsewhere : ∀ contact ∈ listed, contact.address ≠ requester
  others : ∀ contact ∈ listed, contact.id ≠ own
  closestFirst : listed.Pairwise fun a b => Table.farness target a < Table.farness target b
  nearest : family ∈ families → table.Nearest now target 8
    (fun contact => contact.family = family && contact.address ≠ requester) listed
  unwanted : family ∉ families → listed = []

section Lists

variable {own : NodeId} {families : List Family} {table : Table} {now : Instant} {family : Family}
  {listed : List Contact}

theorem lists_nil (unwanted : family ∉ families) :
    Lists own families table now sender target family [] where
  few := Nat.zero_le 8
  useful := nofun
  kin := nofun
  elsewhere := nofun
  others := nofun
  closestFirst := .nil
  nearest := fun wanted => absurd wanted unwanted
  unwanted := fun _ => rfl

theorem lists_of_nearest (sorted : table.Sorted own) (wanted : family ∈ families)
    (nearest : table.Nearest now target 8
      (fun contact => contact.family = family && contact.address ≠ sender) listed) :
    Lists own families table now sender target family listed where
  few := by
    rw [nearest.length]
    exact Nat.min_le_left _ _
  useful := fun contact among => (nearest.known contact among).2
  kin := fun contact among =>
    of_decide_eq_true (Bool.and_eq_true_iff.mp (nearest.known contact among).1).1
  elsewhere := fun contact among =>
    of_decide_eq_true (Bool.and_eq_true_iff.mp (nearest.known contact among).1).2
  others := by
    intro contact among
    rcases (nearest.known contact among).2 with ⟨node, member, rfl, -⟩
    exact sorted.wellFormed.others node member
  closestFirst := nearest.closestFirst
  nearest := fun _ => nearest
  unwanted := fun unwanted => absurd wanted unwanted

end Lists

/-- What is listed are the closest nodes of each family that is wanted. -/
theorem lists_closestWanted (env : Surroundings) (n : LocalNode) (sorted : n.table.Sorted n.id)
    (target : NodeId) (want : Option Want) (sender : Address) :
    Lists n.id (n.wantedFamilies want) n.table env.now sender target .v4
        (n.closestWanted env target want sender).1 ∧
      Lists n.id (n.wantedFamilies want) n.table env.now sender target .v6
        (n.closestWanted env target want sender).2 := by
  have hSome : ∀ (wanted : Prop) [Decidable wanted] (family : Family),
      (wanted ↔ family ∈ n.wantedFamilies want) →
      Lists n.id (n.wantedFamilies want) n.table env.now sender target family
        (if wanted then n.closestOf env target family sender else []) := by
    intro wanted _ family iff
    split
    next yes => exact lists_of_nearest sorted (iff.mp yes) (sorted.nearest_closestWhere ..)
    next no => exact lists_nil (mt iff.mpr no)
  rw [closestWanted]
  dsimp only
  refine ⟨hSome _ .v4 ?_, hSome _ .v6 ?_⟩
  · rcases want with _ | want
    · cases family : n.family <;> simp [wantedFamilies, family]
    · cases want <;> simp [wantedFamilies]
  · rcases want with _ | want
    · cases family : n.family <;> simp [wantedFamilies, family]
    · cases want <;> simp [wantedFamilies]

/-- Whoever searches is told of the closest nodes, and nothing but the tokens changes. -/
theorem answer_of_seeks (seeks : query.seeks? = some (target, want)) (env : Surroundings)
    (n : LocalNode) (sender : Address) (compatible : Bool) :
    ∃ response tokens,
      n.answer env sender compatible query = (.response response, { n with tokens }) ∧
      n.closestWanted env target want sender = (response.nodes, response.nodes6) := by
  cases query with
  | findNode id wanted families =>
    rcases Option.some.inj seeks with ⟨⟩
    exact ⟨_, n.tokens, rfl, rfl⟩
  | getPeers id infoHash families =>
    rcases Option.some.inj seeks with ⟨⟩
    exact ⟨_, _, rfl, rfl⟩
  | ping => cases seeks
  | announcePeer => cases seeks
  | other => cases seeks

/-- Whoever searches is sent a response, and it lists the closest nodes. -/
theorem lists_of_step {data : Bytes} {message : Message}
    (sorted : (n.step env (.datagram sender data)).table.Sorted n.id)
    (running : n.running = true) (answers : n.readOnly = false)
    (read : Message.decode (data.take maxDatagramLength) = .ok message)
    (about : message.body = .query query) (seeks : query.seeks? = some (target, want)) :
    ∃ response delivered,
      (n.step env (.datagram sender data)).replies =
        [.sent sender (.ofBody message.transaction (.response response)) delivered] ∧
      Lists n.id (n.wantedFamilies want) (n.step env (.datagram sender data)).table env.now sender
        target .v4 response.nodes ∧
      Lists n.id (n.wantedFamilies want) (n.step env (.datagram sender data)).table env.now sender
        target .v6 response.nodes6 := by
  have hAnswers : ({ n with outbox := [] } : LocalNode).readOnly = false := answers
  rcases handleQuery_noted env { n with outbox := [] } sender message query with
    ⟨table, -, handled⟩
  rcases answer_of_seeks seeks env { n with outbox := [], table } sender
    (message.isSimilarTo Message.ownVersion) with ⟨response, tokens, answered, closest⟩
  have hReply : IsAnswer (.ofBody message.transaction (.response response)) := .inl ⟨_, rfl⟩
  have hReplies := @replies_step n env running (.datagram sender data)
  have hTable := @table_step env n (.datagram sender data)
  rw [handleEvent, handleDatagram_of_query hAnswers read about, handled, answered] at hReplies
  rw [if_pos running, handleEvent, handleDatagram_of_query hAnswers read about, handled,
    answered] at hTable
  have hNoted : (n.step env (.datagram sender data)).table = table := hTable
  have hLists := lists_closestWanted env { n with outbox := [], table } (hNoted ▸ sorted) target
    want sender
  rw [closest] at hLists
  rw [hNoted]
  exact ⟨response, _, hReplies.trans (replies_send hReply _), hLists⟩

/-- In every routing table that comes about, the search finds the closest nodes.  Whatever a node has
gone through, whoever searches for nodes or peers is sent one response, and it lists the closest
nodes of either family. -/
theorem closest_of_search :
    (∀ (own : NodeId) (t : Table), t.Reachable own →
      ∀ (now : Instant) (target : NodeId) (count : Nat) (meets : Contact → Bool),
        t.Nearest now target count meets (t.closestWhere now target count meets)) ∧
    ∀ (options : Options) (localAddress : Address) (now : Instant) (secrets : Draws (BitVec 32))
      (firstTransaction : TransactionId) (events : List (Surroundings × Event))
      (env : Surroundings) (sender : Address) (data : Bytes) (message : Message) (query : Query)
      (target : NodeId) (want : Option Want),
      let n := ((start options localAddress now secrets firstTransaction).run events).2
      let after := n.step env (.datagram sender data)
      n.running = true → n.readOnly = false →
      Message.decode (data.take maxDatagramLength) = .ok message → message.body = .query query →
      query.seeks? = some (target, want) →
      ∃ response delivered,
        after.replies =
          [.sent sender (.ofBody message.transaction (.response response)) delivered] ∧
        Lists options.id (n.wantedFamilies want) after.table env.now sender target .v4
          response.nodes ∧
        Lists options.id (n.wantedFamilies want) after.table env.now sender target .v6
          response.nodes6 := by
  refine ⟨fun own t reachable => reachable.sorted.nearest_closestWhere, ?_⟩
  intro options localAddress now secrets firstTransaction events env sender data message query
    target want n after running answers read about seeks
  have hNew := roster_start options localAddress now secrets firstTransaction
  have hId : n.id = options.id := (tended_run hNew events).same
  have hSorted := (tended_run hNew (events ++ [(env, .datagram sender data)])).sorted
  rw [run_append, ← hId] at hSorted
  rw [← hId]
  exact lists_of_step hSorted running answers read about seeks

/-- A node that was pinged. -/
def pinged : LocalNode :=
  ((start { id := .zero } ⟨.v4 9, 9⟩ 0 default ⟨0⟩).run
    [(.reliable 0, .datagram ⟨.v4 1, 1⟩
      (Message.ofBody [0x61, 0x61] (.query (.ping ⟨1⟩))).encode)]).2

/-- The search for the nodes closest to the one that has pinged. -/
def inquiry : Message :=
  .ofBody [0x61, 0x61] (.query (.findNode ⟨2⟩ ⟨1⟩ none))

theorem closest_of_inquiry :
    let known := ({ own := .zero } : Table).learnAll 0 [⟨⟨1⟩, ⟨.v4 1, 1⟩⟩, ⟨⟨2⟩, ⟨.v4 2, 2⟩⟩]
    let after := pinged.step (.reliable 1) (.datagram ⟨.v4 2, 2⟩ inquiry.encode)
    known.Reachable .zero ∧
      known.Nearest 0 ⟨2⟩ 1 (fun _ => true) (known.closestWhere 0 ⟨2⟩ 1 fun _ => true) ∧
      pinged.running = true ∧ pinged.readOnly = false ∧
      Message.decode (inquiry.encode.take maxDatagramLength) = .ok inquiry ∧
      after.contacts = [⟨⟨1⟩, ⟨.v4 1, 1⟩⟩, ⟨⟨2⟩, ⟨.v4 2, 2⟩⟩] ∧
      ∃ response delivered,
        after.replies = [.sent (Destination.ofAddress ⟨.v4 2, 2⟩)
          (.ofBody [0x61, 0x61] (.response response)) delivered] ∧
        Lists .zero (pinged.wantedFamilies none) after.table 1 ⟨.v4 2, 2⟩ ⟨1⟩ .v4 response.nodes ∧
        Lists .zero (pinged.wantedFamilies none) after.table 1 ⟨.v4 2, 2⟩ ⟨1⟩ .v6
          response.nodes6 := by
  intro known after
  have hReachable : known.Reachable .zero := .learnAll 0 _ .new
  have hRunning : pinged.running = true := by decide +kernel
  have hAnswers : pinged.readOnly = false := by decide +kernel
  have hRead : Message.decode (inquiry.encode.take maxDatagramLength) = .ok inquiry := by
    decide +kernel
  have hContacts : after.contacts = [⟨⟨1⟩, ⟨.v4 1, 1⟩⟩, ⟨⟨2⟩, ⟨.v4 2, 2⟩⟩] := by decide +kernel
  exact ⟨hReachable, closest_of_search.1 _ _ hReachable 0 ⟨2⟩ 1 _, hRunning, hAnswers, hRead,
    hContacts, closest_of_search.2 { id := .zero } ⟨.v4 9, 9⟩ 0 default ⟨0⟩ _ _ ⟨.v4 2, 2⟩
      inquiry.encode inquiry _ ⟨1⟩ none hRunning hAnswers hRead rfl rfl⟩

end LocalNode
end Kademlia
