import Kademlia.Sequence
import Kademlia.Transactions

namespace Kademlia

/-!
Announcements: telling the nodes closest to a key, which handed out a token before, that a peer is
to be found here.  Eight of them are to accept; those that refuse make way for the next.
-/

/-- How far an announcement has come with a node. -/
inductive TargetState where
  | unused
  /-- The node was chosen, and its query is not sent yet. -/
  | picked
  | pending (id : TransactionId)
  | success
  | failure
deriving DecidableEq, Repr

namespace TargetState

/-- Whether an answer is still to come. -/
def isInFlight : TargetState → Bool
  | picked | pending _ => true
  | _ => false

/-- Whether a node counts among those that accept or may yet do so. -/
def isActive (s : TargetState) : Bool :=
  s.isInFlight || s == success

end TargetState

/-- A node that can be told, and the token that it wants back. -/
structure AnnounceTarget where
  contact : Contact
  token : Bytes
  state : TargetState := .unused
deriving DecidableEq, Repr

/-- Whether anything is left to do. -/
inductive Progress where
  | ongoing
  | completed
deriving DecidableEq, Repr

/-- An announcement in progress. -/
structure Announce where
  infoHash : InfoHash
  /-- The announced port; without one, the peer is found at the port that the queries come from. -/
  port : Option UInt16
  /-- The nodes in order of their distance to the key. -/
  targets : List AnnounceTarget
deriving DecidableEq, Repr

namespace Announce

/-- How many nodes are to accept. -/
def wanted : Nat := 8

def start (infoHash : InfoHash) (targets : List (Contact × Bytes)) (port : Option UInt16) :
    Announce :=
  ⟨infoHash, port, targets.map fun (contact, token) => { contact, token }⟩

def count (a : Announce) (meets : TargetState → Bool) : Nat :=
  a.targets.countP (meets ·.state)

/-- How many nodes have accepted. -/
def accepted (a : Announce) : Nat :=
  a.count (· = .success)

/-- Chooses up to `n` unused nodes, the first ones first. -/
def choose : Nat → List AnnounceTarget → List AnnounceTarget × List AnnounceTarget
  | 0, targets => ([], targets)
  | _ + 1, [] => ([], [])
  | n + 1, target :: rest =>
    if target.state = .unused then
      let (chosen, rest) := choose n rest
      (target :: chosen, { target with state := .picked } :: rest)
    else
      let (chosen, rest) := choose (n + 1) rest
      (chosen, target :: rest)

/-- Chooses the next nodes to tell, so that with those that have accepted or may do so there are
as many as are wanted. -/
def pick (a : Announce) (own : NodeId) : List (Contact × Query) × Announce :=
  let (chosen, targets) := choose (wanted - a.count TargetState.isActive) a.targets
  (chosen.map fun t => (t.contact, .announcePeer own a.infoHash a.port t.token),
    { a with targets })

/-- Gives a new state to a node. -/
def setState (a : Announce) (contact : Contact) (state : TargetState) : Announce :=
  { a with targets := modifyFirst (·.contact = contact) ({ · with state := state }) a.targets }

/-- The query to a node has been sent. -/
def sent (a : Announce) (contact : Contact) (id : TransactionId) : Announce :=
  a.setState contact (.pending id)

/-- A node has accepted or not: it refused, has not answered, or could not be asked. -/
def onReply (a : Announce) (contact : Contact) (success : Bool) : Announce :=
  a.setState contact (if success then .success else .failure)

/-- Whether anything is left to do: an answer to come, or a node to tell in place of one that
refused. -/
def progress (a : Announce) : Progress :=
  if 0 < a.count TargetState.isInFlight then .ongoing
  else if wanted ≤ a.accepted ∨ a.count (· = .unused) = 0 then .completed
  else .ongoing

end Announce
end Kademlia
