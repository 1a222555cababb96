import Kademlia.Proofs.LocalNode.Course
import Kademlia.Proofs.LocalNode.Situation
import Mathlib.Data.List.Induction

namespace Kademlia
namespace LocalNode

/-!
# How routers come into the routing table

Other nodes get into the routing table when they speak, and when a response lists them.  Routers are
to be kept out, and a node that speaks from the address of a router is passed over.  But nothing
keeps out a router that is listed, and nothing removes a node whose address is found to be a
router's after it was taken in.  These are the only ways: a router in the routing table goes back to
an event at which it was listed, or at which its address was not yet a router's (`origin_of_run`).
-/

open Routing (Table)
open Routing.Table (Grown)

variable {env : Surroundings}

theorem table_close (n : LocalNode) : n.close.table = n.table := by
  have hQuiet := congrArg LocalNode.table (quiet_close n)
  exact hQuiet

/-- Only the event itself changes the routing table, and not what is wrapped up after it. -/
theorem table_step (n : LocalNode) (event : Event) :
    (n.step env event).table =
      if n.running then ({ n with outbox := [] }.handleEvent env event).table else n.table := by
  have hWrapped : (({ n with outbox := [] }.handleEvent env event).wrapUp env).table =
      ({ n with outbox := [] }.handleEvent env event).table := by
    rcases @situation_wrapUp env ({ n with outbox := [] }.handleEvent env event) with
      same | ⟨-, judged⟩
    · exact congrArg Situation.table same
    · exact (congrArg Situation.table judged).trans (Situation.table_judge ..)
  rw [step]
  dsimp only
  split
  · split
    · exact hWrapped
    · rw [table_close]
      exact hWrapped
  · rfl

/-- Whoever is in the routing table after an event was there before, or was introduced. -/
theorem grown_step (n : LocalNode) (event : Event) :
    Grown (n.Introduced event) n.table (n.step env event).table := by
  rw [table_step]
  split
  · exact (handled_handleEvent { n with outbox := [] } event).grown
  · exact .refl

/-- A contact comes into the routing table at an event. -/
def Enters (contact : Contact) (n : LocalNode) (env : Surroundings) (event : Event) : Prop :=
  n.contacts.contains contact = false ∧ contact ∈ (n.step env event).contacts

/-- Every contact in the routing table was introduced when it came in. -/
theorem introduced_of_run {n : LocalNode} {contact : Contact} (new : n.contacts = [])
    (events : List (Surroundings × Event)) (known : contact ∈ (n.run events).2.contacts) :
    Happened (fun m env event => Enters contact m env event ∧ m.Introduced event contact)
      n events := by
  induction events using List.reverseRecOn with
  | nil =>
    rw [run, List.foldl_nil, new] at known
    cases known
  | append_singleton events last ih =>
    rcases last with ⟨env, event⟩
    rw [happened_append]
    rw [run_append] at known
    by_cases before : contact ∈ (n.run events).2.contacts
    · exact .inl (ih before)
    · have hAbsent : (n.run events).2.contacts.contains contact = false := by
        rw [List.contains_eq_mem]
        exact decide_eq_false before
      rcases (grown_step (n.run events).2 event).contacts contact known with old | introduced
      · exact absurd old before
      · exact .inr ⟨⟨hAbsent, known⟩, introduced⟩

/-- Whoever is in the routing table was listed in a response when it came in, or it spoke and its
address was not a router's at that time. -/
theorem origin_of_run (options : Options) (localAddress : Address) (now : Instant)
    (secrets : Draws (BitVec 32)) (firstTransaction : TransactionId)
    (events : List (Surroundings × Event)) :
    let n := start options localAddress now secrets firstTransaction
    ∀ contact ∈ (n.run events).2.contacts,
      Happened (fun m env event => Enters contact m env event ∧ (m.Listed event contact ∨
        m.Speaks event contact ∧ m.bootstrap.isRouter contact.address = false)) n events := by
  intro n contact known
  rcases introduced_of_run (show n.contacts = [] from rfl) events known with
    ⟨before, env, event, after, split, enters, introduced⟩
  exact ⟨before, env, event, after, split, enters, introduced.symm⟩

/-- A node that joins through a router. -/
def newcomer : LocalNode :=
  start { id := .zero, routers := [.literal ⟨⟨.v4 1, 1⟩, 0⟩] } ⟨.v4 2, 2⟩ 0 default ⟨0⟩

/-- The router answers, and lists itself. -/
def selfishAnswer : List (Surroundings × Event) :=
  [(.reliable 0, .command .startBootstrap),
    (.reliable 1, .datagram ⟨.v4 1, 1⟩
      (Message.ofBody (TransactionId.mk 0).toBytes
        (.response { sender := ⟨1⟩, nodes := [⟨⟨1⟩, ⟨.v4 1, 1⟩⟩] })).encode)]

theorem origin_of_selfishRouter :
    ⟨⟨1⟩, ⟨.v4 1, 1⟩⟩ ∈ (newcomer.run selfishAnswer).2.contacts ∧
      Happened (fun m env event => Enters ⟨⟨1⟩, ⟨.v4 1, 1⟩⟩ m env event ∧
        (m.Listed event ⟨⟨1⟩, ⟨.v4 1, 1⟩⟩ ∨ m.Speaks event ⟨⟨1⟩, ⟨.v4 1, 1⟩⟩ ∧
          m.bootstrap.isRouter ⟨.v4 1, 1⟩ = false)) newcomer selfishAnswer := by
  have hKnown : ⟨⟨1⟩, ⟨.v4 1, 1⟩⟩ ∈ (newcomer.run selfishAnswer).2.contacts := by decide +kernel
  exact ⟨hKnown, origin_of_run _ _ _ _ _ _ _ hKnown⟩

theorem router_in_table :
    (newcomer.run selfishAnswer).2.contacts = [⟨⟨1⟩, ⟨.v4 1, 1⟩⟩] ∧
      (newcomer.run selfishAnswer).2.bootstrap.isRouter ⟨.v4 1, 1⟩ = true := by
  decide +kernel

end LocalNode
end Kademlia
